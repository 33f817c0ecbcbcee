import PortCodec.Proofs.Access

/-! Canonical states are value assignments. The bits of a state are those of its controls and the
unused ones behind the last button; whoever starts from an empty state and only writes controls and
reads lines never sets an unused bit, and with those clear a state is known from its values. -/

namespace PortCodec

namespace Entry
open Bytes

variable {e : Entry} {es : List Entry} {s : Bytes}

def storeAll (s : Bytes) (value : Entry → Int16) (es : List Entry) : Bytes :=
  es.foldl (fun s e => e.store s (value e)) s

/-- A control keeps its value while others are written. -/
theorem fetch_storeAll_of_apart (value : Entry → Int16) (he : e.Within s)
    (hes : ∀ f ∈ es, f.Within s) (h : ∀ f ∈ es, f.Apart e) :
    e.fetch (storeAll s value es) = e.fetch s := by
  induction es generalizing s with
  | nil => rfl
  | cons f es ih =>
    have hf := hes f (by simp)
    rw [← fetch_store_of_apart hf he (h f (by simp)) (value f)]
    exact ih (he.store _ f) (fun g hg => (hes g (by simp [hg])).store _ f)
      fun g hg => h g (by simp [hg])

/-- Controls that share no bit can all be given values. -/
theorem fetch_storeAll (value : Entry → Int16) (hes : ∀ f ∈ es, f.Within s)
    (h : es.Pairwise Apart) (he : e ∈ es) :
    e.fetch (storeAll s value es) = kept e.kind (value e) := by
  induction es generalizing s with
  | nil => simp at he
  | cons f es ih =>
    obtain ⟨hhead, hrest⟩ := List.pairwise_cons.1 h
    have hwithin : ∀ g ∈ es, g.Within (f.store s (value f)) :=
      fun g hg => (hes g (by simp [hg])).store _ f
    rcases List.mem_cons.1 he with rfl | he
    · have hf := hes e (by simp)
      rw [← fetch_store hf]
      exact fetch_storeAll_of_apart value (hf.store _ e) hwithin
        fun g hg b hb => hhead g hg b hb.symm
    · exact ih hwithin hrest he

end Entry

namespace Layout
open Bytes Line Entry

variable {p : Port} {s t : Bytes}

/-- The bits behind the last button, up to the end of its byte. -/
def Unused (l : Layout) (b : ℕ) : Prop := l.buttonBits ≤ b ∧ b < 8 * ((l.buttonBits + 7) / 8)

theorem not_unused {e : Entry} (he : e ∈ (plan p).index) {b : ℕ} (hb : e.Occupies b) :
    ¬ (plan p).Unused b :=
  ((storesInOrder_plan p).covered b ((storesInOrder_plan p).inside e he b hb)).1 ⟨e, he, hb⟩

section Reached

/-- What is done to a state while it is in use. -/
inductive Use
  | write (controller control : ℤ) (v : Int16)
  | deserialize (line : Bytes)

def use (l : Layout) (s : Bytes) : Use → Bytes
  | .write k i v => l.write s k i v
  | .deserialize line => (l.deserialize s line).2

/-- A new state after uses. -/
def reached (l : Layout) (uses : List Use) : Bytes := uses.foldl l.use l.newState

theorem canonical_newState (l : Layout) : l.Canonical l.newState :=
  ⟨newState_length l, fun i _ _ => bitAt_zeros _ i⟩

theorem Canonical.store (h : (plan p).Canonical s) {e : Entry}
    (he : e ∈ (plan p).index) (v : Int16) :
    (plan p).Canonical (e.store s v) where
  length := by rw [store_length, h.length]
  clear := by
    intro b h1 h2
    have hwithin := within_of_mem (s := s) h.length.ge he
    rw [bitAt_store_of_not hwithin v fun hb => not_unused he hb ⟨h1, h2⟩, h.clear b h1 h2]

theorem Canonical.write (h : (plan p).Canonical s) (k i : ℤ) (v : Int16) :
    (plan p).Canonical ((plan p).write s k i v) := by
  rw [write_eq]
  cases he : (plan p).lookup? k i with
  | none => exact h
  | some e => exact h.store (List.mem_of_getElem? (lookup?_eq_some he).2) v

/-- Reading a line leaves nothing of what a state of the right size held before. -/
theorem canonical_deserialize (hv : p.Valid) (hs : s.length = (plan p).storageSize) (line : Bytes) :
    (plan p).Canonical ((plan p).deserialize s line).2 := by
  have hstate : ((plan p).deserialize s line).2 =
      storeSteps (plan p).newState (plan p).program (parseSteps line (plan p).program).1 := by
    unfold deserialize
    rw [clearFirst_eq hs.ge, List.drop_of_length_le hs.le, List.append_nil, readSteps_eq]
  rw [hstate]
  exact canonical_storeSteps hv _

theorem Canonical.use (hv : p.Valid) (h : (plan p).Canonical s) (u : Use) :
    (plan p).Canonical ((plan p).use s u) := by
  cases u with
  | write k i v => exact h.write k i v
  | deserialize line => exact canonical_deserialize hv h.length line

/-- Every state in use is canonical. -/
theorem canonical_reached (hv : p.Valid) (uses : List Use) :
    (plan p).Canonical ((plan p).reached uses) := by
  have hrun : ∀ s, (plan p).Canonical s → (plan p).Canonical (uses.foldl (plan p).use s) := by
    induction uses with
    | nil => exact fun s h => h
    | cons u uses ih => exact fun s h => ih _ (h.use hv u)
  exact hrun _ (canonical_newState _)

end Reached

section Values

/-- What reading the controls of a state gives, by controller and control. -/
def values (l : Layout) (s : Bytes) (k i : ℕ) : Int16 := l.read s k i

def IsAssignment (p : Port) (value : ℕ → ℕ → Int16) : Prop :=
  ∀ k i c, controlAt? p k i = some c → c.kind = .button → value k i = 0 ∨ value k i = 1

def HasValues (p : Port) (s : Bytes) (value : ℕ → ℕ → Int16) : Prop :=
  ∀ k i c, controlAt? p k i = some c → c.kind.isStored = true → (plan p).values s k i = value k i

/-- An entry of the index is that of the pair of numbers it carries. -/
theorem lookup?_of_mem {e : Entry} (he : e ∈ (plan p).index) :
    (plan p).lookup? e.controller e.control = some e := by
  obtain ⟨n, hn⟩ := List.mem_iff_getElem?.1 he
  have hlen : n < (plan p).controllers * (plan p).stride := by
    rw [← plan_index_length]
    exact (List.getElem?_eq_some_iff.1 hn).1
  have hstride : 0 < (plan p).stride := Nat.pos_of_mul_pos_left (Nat.zero_lt_of_lt hlen)
  obtain ⟨f, hf, hlook, hk, hi, -⟩ := lookup?_plan_eq (p := p) (k := n / (plan p).stride)
    (i := n % (plan p).stride) (Nat.div_lt_of_lt_mul (by rwa [Nat.mul_comm])) (Nat.mod_lt _ hstride)
  rw [Nat.div_add_mod' , hn] at hf
  obtain rfl := Option.some.inj hf
  rw [hk, hi]
  exact hlook

theorem pairwise_apart (p : Port) : (plan p).index.Pairwise Apart := by
  rw [List.pairwise_iff_getElem]
  intro m n hm hn hmn
  exact (storesInOrder_plan p).disjoint m n _ _ (List.getElem?_eq_getElem hm)
    (List.getElem?_eq_getElem hn) hmn.ne

theorem isAssignment_values (p : Port) (s : Bytes) : IsAssignment p ((plan p).values s) := by
  intro k i c hc hb
  obtain ⟨e, he, hkind, -⟩ := exists_entry hc
  rw [values, read_eq, he]
  simp only [fetch, hkind, hb, if_true]
  split_ifs <;> simp

def assigned (l : Layout) (value : ℕ → ℕ → Int16) : Bytes :=
  storeAll l.newState (fun e => value e.controller e.control) l.index

theorem canonical_assigned (p : Port) (value : ℕ → ℕ → Int16) :
    (plan p).Canonical ((plan p).assigned value) := by
  have hall : ∀ es, es ⊆ (plan p).index → ∀ s, (plan p).Canonical s →
      (plan p).Canonical (storeAll s (fun e => value e.controller e.control) es) := by
    intro es
    induction es with
    | nil => exact fun _ s h => h
    | cons e es ih =>
      intro hes s h
      exact ih (fun f hf => hes (by simp [hf])) _ (h.store (hes (by simp)) _)
  exact hall _ (List.Subset.refl _) _ (canonical_newState _)

theorem IsAssignment.kept {value : ℕ → ℕ → Int16} (h : IsAssignment p value) {k i : ℕ} {c : Control}
    (hc : controlAt? p k i = some c) (hstored : c.kind.isStored = true) :
    Entry.kept c.kind (value k i) = value k i := by
  rcases (Kind.isStored_iff _).1 hstored with hb | ha
  · rw [hb, Entry.kept]
    rcases h k i c hc hb with h0 | h1
    · simp [h0]
    · simp [h1]
  · exact kept_of_isAxis ha _

theorem hasValues_assigned {value : ℕ → ℕ → Int16} (h : IsAssignment p value) :
    HasValues p ((plan p).assigned value) value := by
  intro k i c hc hstored
  obtain ⟨e, he, hkind, hk, hi⟩ := exists_entry hc
  have hmem := List.mem_of_getElem? (lookup?_eq_some he).2
  have hfetch := fetch_storeAll (s := (plan p).newState) (fun e => value e.controller e.control)
    (fun f hf => within_of_mem (newState_length _).ge hf) (pairwise_apart p) hmem
  rw [values, read_eq, he]
  exact hfetch.trans (by rw [hkind, hk, hi, h.kept hc hstored])

/-- An entry that occupies a bit is that of a stored control. -/
theorem exists_control {e : Entry} (he : e ∈ (plan p).index) {b : ℕ} (hb : e.Occupies b) :
    ∃ c, controlAt? p e.controller e.control = some c ∧ c.kind.isStored = true := by
  have hstored : e.kind.isStored = true := by
    unfold Occupies at hb
    split_ifs at hb with h1 h2
    · simp [Kind.isStored, h1]
    · simp [Kind.isStored, h2]
  have hkind := kind_of_lookup? (lookup?_of_mem he)
  simp only [controlOf?, Int.natCast_nonneg, and_self, if_true, Int.toNat_natCast] at hkind
  cases hc : controlAt? p e.controller e.control with
  | none => simp [hkind, hc, Kind.isStored, Kind.isAxis] at hstored
  | some c => exact ⟨c, rfl, by simpa [hkind, hc] using hstored⟩

/-- Canonical states with the same values are the same. -/
theorem Canonical.ext (hs : (plan p).Canonical s) (ht : (plan p).Canonical t)
    (h : HasValues p s ((plan p).values t)) : s = t := by
  apply ext_byteAt (by rw [hs.length, ht.length])
  intro n hn
  apply byteAt_eq_of_bitAt
  intro j hj
  rw [hs.length] at hn
  by_cases hu : (plan p).Unused (8 * n + j)
  · rw [hs.clear _ hu.1 hu.2, ht.clear _ hu.1 hu.2]
  · obtain ⟨e, he, hb⟩ := ((storesInOrder_plan p).covered (8 * n + j) (by omega)).2 hu
    obtain ⟨c, hc, hstored⟩ := exists_control he hb
    have hread := h _ _ c hc hstored
    rw [values, values, read_eq, read_eq, lookup?_of_mem he] at hread
    exact (fetch_eq_iff (within_of_mem hs.length.ge he)).1 hread _ hb

end Values

section Canonicalize

theorem bitAt_canonicalize_of_not_unused (l : Layout) (s : Bytes) {b : ℕ} (h : ¬ l.Unused b) :
    (l.canonicalize s).bitAt b = s.bitAt b := by
  unfold Unused at h
  by_cases hb : b < 8 * ((l.buttonBits + 7) / 8)
  · have hlt : b < l.buttonBits := by omega
    rw [bitAt_canonicalize l s hb]
    simp [hlt]
  · -- a byte of an axis; the last button byte lies before it, if it has unused bits at all
    by_cases hrem : l.buttonBits % 8 = 0
    · rw [canonicalize, if_pos hrem]
    · exact bitAt_congr (byteAt_canonicalize_of_ne l s (by omega))

theorem read_canonicalize (hs : s.length = (plan p).storageSize) (k i : ℤ) :
    (plan p).read ((plan p).canonicalize s) k i = (plan p).read s k i := by
  rw [read_eq, read_eq]
  cases he : (plan p).lookup? k i with
  | none => rfl
  | some e =>
    have hmem := List.mem_of_getElem? (lookup?_eq_some he).2
    apply (fetch_eq_iff (within_of_mem (by rw [canonicalize_length, hs]) hmem)).2
    intro b hb
    exact bitAt_canonicalize_of_not_unused _ s (not_unused hmem hb)

theorem eq_canonicalize (hs : s.length = (plan p).storageSize) (ht : (plan p).Canonical t)
    (h : HasValues p t ((plan p).values s)) : t = (plan p).canonicalize s := by
  apply ht.ext (canonical_canonicalize hs)
  intro k i c hc hstored
  rw [h k i c hc hstored, values, values, read_canonicalize hs]

theorem stepText_of_stepValue {x : Step} (h : stepValue s x = stepValue t x) :
    stepText s x = stepText t x := by
  cases x with
  | button o m c =>
    unfold stepValue at h
    unfold stepText
    cases hs : testMask s o m <;> cases ht : testMask t o m <;> simp_all
  | axis o => exact congrArg axisText h
  | _ => rfl

/-- Unused bits do not show in a line. -/
theorem serialize_canonicalize (hv : p.Valid) (s : Bytes) :
    (plan p).serialize ((plan p).canonicalize s) = (plan p).serialize s :=
  List.flatMap_congr fun x hx =>
    stepText_of_stepValue (List.map_eq_map_iff.1 (map_stepValue_canonicalize hv s) x hx)

end Canonicalize

/-- Canonical states stand for the value assignments of a port: a state in use is canonical, each
assignment has one canonical state, and clearing the unused bits of a state gives that of its
values. -/
structure CanonicalStates (p : Port) : Prop where
  reached : ∀ uses, (plan p).Canonical ((plan p).reached uses)
  isAssignment : ∀ s, IsAssignment p ((plan p).values s)
  existsUnique : ∀ value, IsAssignment p value → ∃! s, (plan p).Canonical s ∧ HasValues p s value
  ext : ∀ s t, (plan p).Canonical s → (plan p).Canonical t →
    HasValues p s ((plan p).values t) → s = t
  canonicalize : ∀ s, s.length = (plan p).storageSize →
    (plan p).Canonical ((plan p).canonicalize s) ∧
      (∀ k i, (plan p).read ((plan p).canonicalize s) k i = (plan p).read s k i) ∧
      ∀ t, (plan p).Canonical t → HasValues p t ((plan p).values s) →
        t = (plan p).canonicalize s
  text : ∀ s, s.length = (plan p).storageSize →
    (plan p).serialize ((plan p).canonicalize s) = (plan p).serialize s
  idempotent : ∀ s, s.length = (plan p).storageSize →
    (plan p).canonicalize ((plan p).canonicalize s) = (plan p).canonicalize s

theorem canonical_states (hv : p.validate = .ok ()) : CanonicalStates p where
  reached := canonical_reached ((Port.validate_ok_iff p).1 hv)
  isAssignment := isAssignment_values p
  existsUnique := by
    intro value h
    refine ⟨_, ⟨canonical_assigned p value, hasValues_assigned h⟩, ?_⟩
    rintro s ⟨hs, hvalues⟩
    apply hs.ext (canonical_assigned p value)
    intro k i c hc hstored
    rw [hvalues k i c hc hstored, hasValues_assigned h k i c hc hstored]
  ext := fun s t hs ht h => hs.ext ht h
  canonicalize := fun s hs =>
    ⟨canonical_canonicalize hs, read_canonicalize hs, fun t ht h => eq_canonicalize hs ht h⟩
  text := fun s _ => serialize_canonicalize ((Port.validate_ok_iff p).1 hv) s
  idempotent := by
    intro s hs
    refine (eq_canonicalize (p := p) ?_ (canonical_canonicalize hs) ?_).symm
    · rw [canonicalize_length, hs]
    · exact fun k i c _ _ => rfl

/-- With three buttons, five bits of the first byte are unused. The line `"|AB| 300C"` and two
writes to its last button lead to the canonical state that has the values of `[255, 44, 1]`. -/
theorem twoPads_canonical_states : twoPads.validate = .ok () ∧ CanonicalStates twoPads ∧
    (plan twoPads).Canonical [7, 44, 1] ∧
    (plan twoPads).reached [.deserialize [124, 65, 66, 124, 32, 51, 48, 48, 67], .write 1 1 0,
      .write 1 1 (-5)] = (plan twoPads).canonicalize [255, 44, 1] := by
  have hstates : CanonicalStates twoPads := canonical_states rfl
  have hreached : (plan twoPads).reached [.deserialize [124, 65, 66, 124, 32, 51, 48, 48, 67],
      .write 1 1 0, .write 1 1 (-5)] = [7, 44, 1] := by decide +kernel
  have hcanonical := hstates.reached [.deserialize [124, 65, 66, 124, 32, 51, 48, 48, 67],
    .write 1 1 0, .write 1 1 (-5)]
  rw [hreached] at hcanonical ⊢
  exact ⟨rfl, hstates, hcanonical, by decide⟩

end Layout
end PortCodec
