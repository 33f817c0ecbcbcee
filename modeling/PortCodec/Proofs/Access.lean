import PortCodec.Proofs.FieldReading
import PortCodec.Proofs.PlanInvariant

/-! Reading and writing single controls. A write puts its value into the bits of its own control
and nowhere else, so what is written is read back, and writes to different controls do not meet. -/

namespace PortCodec

namespace Bytes

theorem ext_bitAt {s t : Bytes} (hl : s.length = t.length)
    (h : ∀ b, s.bitAt b = t.bitAt b) : s = t :=
  ext_byteAt hl fun _ _ => byteAt_eq_of_bitAt fun _ _ => h _

theorem bitAt_congr {s t : Bytes} {b : ℕ} (h : s.byteAt (b / 8) = t.byteAt (b / 8)) :
    s.bitAt b = t.bitAt b := by
  rw [bitAt, bitAt, h]

end Bytes

namespace Line
open Bytes

theorem bitAt_clearMask (s : Bytes) (i j : ℕ) :
    bitAt (clearMask s (i / 8) (bitMask i)) j = (decide (i ≠ j) && s.bitAt j) := by
  have hk : j % 8 < 8 := Nat.mod_lt _ (by norm_num)
  rw [bitAt, clearMask, byteAt_modify]
  split_ifs with h
  · have hd : decide (i % 8 ≠ j % 8) = decide (i ≠ j) := by
      congr 1
      apply propext
      omega
    rw [UInt8.toNat_and, Nat.testBit_and, testBit_not_bitMask i hk, ← bitAt, Bool.and_comm, hd]
  · rw [← bitAt]
    by_cases hij : i = j
    · -- past the end of the state every bit is clear
      subst hij
      have hout : s.length ≤ i / 8 := by
        by_contra hlt
        exact h ⟨rfl, by omega⟩
      simp [bitAt, byteAt, hout]
    · simp [hij]

end Line

namespace Entry
open Bytes Line

def fetch (e : Entry) (s : Bytes) : Int16 :=
  if e.kind = .button then (if testMask s e.offset e.mask then 1 else 0)
  else if e.kind.isAxis then axisAt s e.offset
  else 0

def store (e : Entry) (s : Bytes) (v : Int16) : Bytes :=
  if e.kind = .button then
    if v != 0 then setMask s e.offset e.mask else Line.clearMask s e.offset e.mask
  else if e.kind.isAxis then setAxis s e.offset v
  else s

/-- A control whose place is one bit or one word inside the state. -/
structure Within (e : Entry) (s : Bytes) : Prop where
  bit : e.kind = .button → ∃ n, e.offset = n / 8 ∧ e.mask = bitMask n ∧ n / 8 < s.length
  word : e.kind.isAxis = true → e.offset + 1 < s.length

variable {e f : Entry} {s t : Bytes}

theorem not_button_of_isAxis (h : e.kind.isAxis = true) : e.kind ≠ .button := by
  intro hb
  simp [hb, Kind.isAxis] at h

/-- The three sorts of controls. -/
theorem Within.cases (h : e.Within s) :
    (∃ n, e.kind = .button ∧ e.offset = n / 8 ∧ e.mask = bitMask n ∧ n / 8 < s.length) ∨
      (e.kind ≠ .button ∧ e.kind.isAxis = true ∧ e.offset + 1 < s.length) ∨
      (e.kind ≠ .button ∧ e.kind.isAxis = false) := by
  by_cases hb : e.kind = .button
  · obtain ⟨n, hn⟩ := h.bit hb
    exact Or.inl ⟨n, hb, hn⟩
  · cases ha : e.kind.isAxis
    · exact Or.inr (Or.inr ⟨hb, rfl⟩)
    · exact Or.inr (Or.inl ⟨hb, rfl, h.word ha⟩)

theorem store_length (e : Entry) (s : Bytes) (v : Int16) : (e.store s v).length = s.length := by
  unfold store
  split_ifs <;> simp

theorem Within.of_length (h : e.Within s) (hl : s.length = t.length) : e.Within t where
  bit := by
    intro hb
    obtain ⟨n, h1, h2, h3⟩ := h.bit hb
    exact ⟨n, h1, h2, hl ▸ h3⟩
  word := fun ha => hl ▸ h.word ha

theorem Within.store (h : e.Within s) (v : Int16) (f : Entry) : e.Within (f.store s v) :=
  h.of_length (store_length f s v).symm

/-- Bits of other controls stay. -/
theorem bitAt_store_of_not (h : e.Within s) (v : Int16) {b : ℕ} (hb : ¬ e.Occupies b) :
    (e.store s v).bitAt b = s.bitAt b := by
  rcases h.cases with ⟨n, hk, ho, hm, hn⟩ | ⟨hk, ha, ho⟩ | ⟨hk, ha⟩
  · have hne : n ≠ b := fun hh => hb ((occupies_bit hk ho hm b).2 hh.symm)
    rw [Entry.store, if_pos hk, ho, hm]
    split_ifs
    · rw [bitAt_setMask s b hn]
      simp [hne]
    · rw [bitAt_clearMask]
      simp [hne]
  · have hne : ¬ (b / 8 = e.offset ∨ b / 8 = e.offset + 1) := by
      simpa [Occupies, hk, ha] using hb
    rw [Entry.store, if_neg hk, if_pos ha]
    exact bitAt_congr (byteAt_setAxis_of_ne s v (by omega) (by omega))
  · rw [Entry.store, if_neg hk, if_neg (by simp [ha])]

/-- What a control keeps of a value: a button whether it is held, an axis all of it. -/
def kept (k : Kind) (v : Int16) : Int16 :=
  match k with
  | .button => if v = 0 then 0 else 1
  | .axis | .reverseAxis | .triggerAxis | .lightgunAxis => v
  | .null | .unknown _ => 0

theorem kept_of_isAxis {k : Kind} (h : k.isAxis = true) (v : Int16) : kept k v = v := by
  cases k <;> simp_all [Kind.isAxis, kept]

theorem kept_of_unstored {k : Kind} (hb : k ≠ .button) (ha : k.isAxis = false) (v : Int16) :
    kept k v = 0 := by
  cases k <;> simp_all [Kind.isAxis, kept]

theorem fetch_store (h : e.Within s) (v : Int16) : e.fetch (e.store s v) = kept e.kind v := by
  rcases h.cases with ⟨n, hk, ho, hm, hn⟩ | ⟨hk, ha, ho⟩ | ⟨hk, ha⟩
  · rw [fetch, if_pos hk, Entry.store, if_pos hk, ho, hm, testMask_bit, hk, kept]
    by_cases hv : v = 0
    · simp [hv, bitAt_clearMask]
    · simp [hv, bitAt_setMask s n hn]
  · rw [fetch, if_neg hk, if_pos ha, Entry.store, if_neg hk, if_pos ha, axisAt_setAxis s v ho,
      kept_of_isAxis ha]
  · rw [fetch, if_neg hk, if_neg (by simp [ha]), kept_of_unstored hk ha]

/-- A control has the same value in two states exactly when they agree at its bits. -/
theorem fetch_eq_iff (h : e.Within s) :
    e.fetch s = e.fetch t ↔ ∀ b, e.Occupies b → s.bitAt b = t.bitAt b := by
  rcases h.cases with ⟨n, hk, ho, hm, hn⟩ | ⟨hk, ha, ho⟩ | ⟨hk, ha⟩
  · have hval : e.fetch s = e.fetch t ↔ s.bitAt n = t.bitAt n := by
      rw [fetch, if_pos hk, fetch, if_pos hk, ho, hm, testMask_bit, testMask_bit]
      cases s.bitAt n <;> cases t.bitAt n <;> simp
    rw [hval]
    constructor
    · intro hn b hb
      rw [(occupies_bit hk ho hm b).1 hb, hn]
    · intro hall
      exact hall n ((occupies_bit hk ho hm n).2 rfl)
  · have hocc : ∀ b, e.Occupies b ↔ b / 8 = e.offset ∨ b / 8 = e.offset + 1 := by
      intro b
      simp [Occupies, hk, ha]
    rw [fetch, if_neg hk, if_pos ha, fetch, if_neg hk, if_pos ha]
    constructor
    · intro hw b hb
      obtain ⟨h0, h1⟩ := bytes_of_axisAt s hw
      rcases (hocc b).1 hb with hb | hb
      · exact bitAt_congr (hb ▸ h0)
      · exact bitAt_congr (hb ▸ h1)
    · intro hall
      apply axisAt_congr <;> apply byteAt_eq_of_bitAt <;> intro j hj <;> apply hall <;>
        rw [hocc] <;> omega
  · have hf : ∀ u, e.fetch u = 0 := fun u => by rw [fetch, if_neg hk, if_neg (by simp [ha])]
    simp [hf, Occupies, hk, ha]

/-- A state is known from a control and the bits outside of it. -/
theorem ext_fetch (h : e.Within s) (hl : s.length = t.length) (hf : e.fetch s = e.fetch t)
    (ho : ∀ b, ¬ e.Occupies b → s.bitAt b = t.bitAt b) : s = t := by
  apply ext_bitAt hl
  intro b
  by_cases hb : e.Occupies b
  · exact (fetch_eq_iff h).1 hf b hb
  · exact ho b hb

theorem kept_fetch (h : e.Within s) : kept e.kind (e.fetch s) = e.fetch s := by
  rcases h.cases with ⟨n, hk, ho, hm, hn⟩ | ⟨hk, ha, ho⟩ | ⟨hk, ha⟩
  · rw [fetch, if_pos hk, hk, kept]
    split_ifs <;> simp_all
  · exact kept_of_isAxis ha _
  · rw [kept_of_unstored hk ha, fetch, if_neg hk, if_neg (by simp [ha])]

theorem store_fetch (h : e.Within s) : e.store s (e.fetch s) = s := by
  apply ext_fetch (h.store _ e) (store_length _ _ _)
  · rw [fetch_store h, kept_fetch h]
  · intro b hb
    exact bitAt_store_of_not h _ hb

theorem store_store (h : e.Within s) (v w : Int16) : e.store (e.store s v) w = e.store s w := by
  apply ext_fetch ((h.store v e).store w e)
  · rw [store_length, store_length, store_length]
  · rw [fetch_store (h.store v e), fetch_store h]
  · intro b hb
    rw [bitAt_store_of_not (h.store v e) w hb, bitAt_store_of_not h v hb, bitAt_store_of_not h w hb]

def Apart (e f : Entry) : Prop := ∀ b, ¬ (e.Occupies b ∧ f.Occupies b)

theorem fetch_store_of_apart (he : e.Within s) (hf : f.Within s) (h : e.Apart f) (v : Int16) :
    f.fetch (e.store s v) = f.fetch s := by
  apply (fetch_eq_iff (hf.store v e)).2
  intro b hb
  exact bitAt_store_of_not he v (fun hh => h b ⟨hh, hb⟩)

theorem store_comm (he : e.Within s) (hf : f.Within s) (h : e.Apart f) (v w : Int16) :
    f.store (e.store s v) w = e.store (f.store s w) v := by
  -- both sides hold `w` in `f`; outside of it compare with `e` written first
  apply ext_fetch (e := f) ((hf.store v e).store w f)
  · rw [store_length, store_length, store_length, store_length]
  · rw [fetch_store (hf.store v e), fetch_store_of_apart (he.store w f) (hf.store w f) h,
      fetch_store hf]
  · intro b hb
    rw [bitAt_store_of_not (hf.store v e) w hb]
    by_cases hbe : e.Occupies b
    · refine (fetch_eq_iff (he.store v e)).1 ?_ b hbe
      rw [fetch_store he, fetch_store (he.store w f)]
    · rw [bitAt_store_of_not he v hbe, bitAt_store_of_not (he.store w f) v hbe,
        bitAt_store_of_not hf w hb]

end Entry

namespace Layout
open Bytes Line Entry

variable {p : Port} {s : Bytes}

def controlOf? (p : Port) (k i : ℤ) : Option Control :=
  if 0 ≤ k ∧ 0 ≤ i then controlAt? p k.toNat i.toNat else none

theorem read_eq (l : Layout) (s : Bytes) (k i : ℤ) :
    l.read s k i = match l.lookup? k i with
      | some e => e.fetch s
      | none => 0 := by
  unfold read
  cases l.lookup? k i <;> rfl

theorem write_eq (l : Layout) (s : Bytes) (k i : ℤ) (v : Int16) :
    l.write s k i v = match l.lookup? k i with
      | some e => e.store s v
      | none => s := by
  unfold write
  cases l.lookup? k i <;> rfl

theorem length_write (l : Layout) (s : Bytes) (k i : ℤ) (v : Int16) :
    (l.write s k i v).length = s.length := by
  rw [write_eq]
  cases l.lookup? k i with
  | none => rfl
  | some e => exact e.store_length s v

theorem lookup?_eq_some {l : Layout} {k i : ℤ} {e : Entry} (h : l.lookup? k i = some e) :
    (0 ≤ k ∧ k < l.controllers ∧ 0 ≤ i ∧ i < l.stride) ∧
      l.index[k.toNat * l.stride + i.toNat]? = some e := by
  unfold lookup? at h
  split_ifs at h with hr
  exact ⟨hr, h⟩

theorem within_of_mem (hs : (plan p).storageSize ≤ s.length) {e : Entry} (h : e ∈ (plan p).index) :
    e.Within s := by
  obtain ⟨n, hn⟩ := List.mem_iff_getElem?.1 h
  obtain ⟨kind, -, he⟩ := plan_slot hn
  have hin := @plan_inside p e h
  refine ⟨fun hb => ?_, fun ha => ?_⟩
  · obtain rfl : kind = .button := by
      rw [he] at hb
      simp only [slotEntry, place] at hb
      split_ifs at hb <;> simp_all
    subst he
    have := hin (occupies_button.2 rfl)
    exact ⟨_, rfl, rfl, by omega⟩
  · have hb := not_button_of_isAxis ha
    have := @hin (8 * (e.offset + 1)) (by
      simp only [Occupies, hb, ha, if_true, if_false]
      omega)
    omega

theorem within_plan (hs : (plan p).storageSize ≤ s.length) {k i : ℤ} {e : Entry}
    (h : (plan p).lookup? k i = some e) : e.Within s :=
  within_of_mem hs (List.mem_of_getElem? (lookup?_eq_some h).2)

/-- Bytes behind those that the layout uses stay. -/
theorem byteAt_write_of_le (hs : (plan p).storageSize ≤ s.length) {n : ℕ}
    (hn : (plan p).storageSize ≤ n)
    (k i : ℤ) (v : Int16) : ((plan p).write s k i v).byteAt n = s.byteAt n := by
  rw [write_eq]
  cases h : (plan p).lookup? k i with
  | none => rfl
  | some e =>
    refine byteAt_eq_of_bitAt fun j hj => bitAt_store_of_not (within_plan hs h) v fun hocc => ?_
    have hmem := List.mem_of_getElem? (lookup?_eq_some h).2
    have := (storesInOrder_plan p).inside e hmem _ hocc
    omega

/-- Different pairs of numbers name controls that share no bit. -/
theorem apart_plan {k i k' i' : ℤ} {e f : Entry} (he : (plan p).lookup? k i = some e)
    (hf : (plan p).lookup? k' i' = some f) (hne : (k, i) ≠ (k', i')) : e.Apart f := by
  obtain ⟨⟨h1, h2, h3, h4⟩, he⟩ := lookup?_eq_some he
  obtain ⟨⟨h5, h6, h7, h8⟩, hf⟩ := lookup?_eq_some hf
  have hi : i.toNat < (plan p).stride := by omega
  have hi' : i'.toNat < (plan p).stride := by omega
  apply (storesInOrder_plan p).disjoint _ _ e f he hf
  -- the slot number is a number in base `stride`
  intro hslot
  have hk : k.toNat = k'.toNat := by rw [← slot_div (k := k.toNat) hi, hslot, slot_div hi']
  have hii : i.toNat = i'.toNat := by rw [← slot_mod (k := k.toNat) hi, hslot, slot_mod hi']
  exact hne (Prod.ext (by show k = k'; omega) (by show i = i'; omega))

theorem kind_of_lookup? {k i : ℤ} {e : Entry} (h : (plan p).lookup? k i = some e) :
    e.kind = ((controlOf? p k i).map (·.kind)).getD .null := by
  obtain ⟨⟨h1, h2, h3, h4⟩, -⟩ := lookup?_eq_some h
  obtain ⟨f, -, hf, -, -, hkind⟩ :=
    lookup?_plan_eq (p := p) (k := k.toNat) (i := i.toNat) (by omega) (by omega)
  rw [Int.toNat_of_nonneg h1, Int.toNat_of_nonneg h3] at hf
  obtain rfl := Option.some.inj (h.symm.trans hf)
  rw [hkind, controlOf?, if_pos ⟨h1, h3⟩]

/-- The entry of a control that is declared. -/
theorem exists_entry {k i : ℕ} {c : Control} (h : controlAt? p k i = some c) :
    ∃ e, (plan p).lookup? k i = some e ∧ e.kind = c.kind ∧ e.controller = k ∧ e.control = i := by
  refine ⟨_, lookup?_declared h, ?_, rfl, rfl⟩
  have hkind := kind_of_lookup? (lookup?_declared h)
  simpa [controlOf?, h] using hkind

/-- A control that is declared has an entry. -/
theorem controlOf?_eq_none {k i : ℤ} (h : (plan p).lookup? k i = none) :
    controlOf? p k i = none := by
  unfold controlOf?
  split_ifs with hr
  · cases hc : controlAt? p k.toNat i.toNat with
    | none => rfl
    | some c =>
      have := lookup?_declared hc
      rw [Int.toNat_of_nonneg hr.1, Int.toNat_of_nonneg hr.2, h] at this
      simp at this
  · rfl

/-- Reading and writing controls of a state follow the laws of a very well-behaved lens for each
pair of numbers, and different pairs do not disturb each other. -/
structure Lens (p : Port) (l : Layout) (s : Bytes) : Prop where
  read_write : ∀ k i v, l.read (l.write s k i v) k i =
    match controlOf? p k i with
    | some c => kept c.kind v
    | none => 0
  write_read : ∀ k i, l.write s k i (l.read s k i) = s
  write_write : ∀ k i v w, l.write (l.write s k i v) k i w = l.write s k i w
  read_write_other :
    ∀ k i k' i' v, (k, i) ≠ (k', i') → l.read (l.write s k i v) k' i' = l.read s k' i'
  write_comm : ∀ k i k' i' v w, (k, i) ≠ (k', i') →
    l.write (l.write s k i v) k' i' w = l.write (l.write s k' i' w) k i v
  length : ∀ k i v, (l.write s k i v).length = s.length
  frame : ∀ k i v b, (∀ e, l.lookup? k i = some e → ¬ e.Occupies b) →
    (l.write s k i v).bitAt b = s.bitAt b
  unstored : ∀ k i v, (∀ c, controlOf? p k i = some c → c.kind.isStored = false) →
    l.write s k i v = s

theorem read_write_plan (hs : (plan p).storageSize ≤ s.length) (k i : ℤ) (v : Int16) :
    (plan p).read ((plan p).write s k i v) k i =
      match controlOf? p k i with
      | some c => kept c.kind v
      | none => 0 := by
  rw [read_eq, write_eq]
  cases h : (plan p).lookup? k i with
  | none => rw [controlOf?_eq_none h]
  | some e =>
    dsimp only
    rw [fetch_store (within_plan hs h), kind_of_lookup? h]
    cases controlOf? p k i <;> rfl

theorem write_unstored (k i : ℤ) (v : Int16)
    (h : ∀ c, controlOf? p k i = some c → c.kind.isStored = false) :
    (plan p).write s k i v = s := by
  rw [write_eq]
  cases he : (plan p).lookup? k i with
  | none => rfl
  | some e =>
    have hstored : e.kind.isStored = false := by
      rw [kind_of_lookup? he]
      cases hc : controlOf? p k i with
      | none => rfl
      | some c => exact h c hc
    simp only [Kind.isStored, Bool.or_eq_false_iff, decide_eq_false_iff_not] at hstored
    simp [store, hstored]

/-- Every plan gives lenses on the states that have room for it. -/
theorem plan_lens (hs : (plan p).storageSize ≤ s.length) : Lens p (plan p) s where
  read_write := read_write_plan hs
  write_read := by
    intro k i
    rw [read_eq, write_eq]
    cases h : (plan p).lookup? k i with
    | none => rfl
    | some e => exact store_fetch (within_plan hs h)
  write_write := by
    intro k i v w
    rw [write_eq, write_eq, write_eq]
    cases h : (plan p).lookup? k i with
    | none => rfl
    | some e => exact store_store (within_plan hs h) v w
  read_write_other := by
    intro k i k' i' v hne
    rw [read_eq, write_eq, read_eq]
    cases he : (plan p).lookup? k i with
    | none => rfl
    | some e =>
      cases hf : (plan p).lookup? k' i' with
      | none => rfl
      | some f =>
        exact fetch_store_of_apart (within_plan hs he) (within_plan hs hf) (apart_plan he hf hne) v
  write_comm := by
    intro k i k' i' v w hne
    rw [write_eq, write_eq, write_eq, write_eq]
    cases he : (plan p).lookup? k i with
    | none => rfl
    | some e =>
      cases hf : (plan p).lookup? k' i' with
      | none => rfl
      | some f =>
        exact store_comm (within_plan hs he) (within_plan hs hf) (apart_plan he hf hne) v w
  length := by
    intro k i v
    rw [write_eq]
    cases (plan p).lookup? k i with
    | none => rfl
    | some e => exact store_length e s v
  frame := by
    intro k i v b hb
    rw [write_eq]
    cases h : (plan p).lookup? k i with
    | none => rfl
    | some e => exact bitAt_store_of_not (within_plan hs h) v (hb e h)
  unstored := write_unstored

/-- A state one byte longer than needed: its axis takes the value -2 and its buttons stay. -/
theorem twoPads_lens : Lens twoPads (plan twoPads) [255, 255, 255, 9] ∧
    (plan twoPads).read ((plan twoPads).write [255, 255, 255, 9] 1 0 (-2)) 1 0 = -2 ∧
    (plan twoPads).read ((plan twoPads).write [255, 255, 255, 9] 1 0 (-2)) 0 1 =
      (plan twoPads).read [255, 255, 255, 9] 0 1 := by
  have hlens : Lens twoPads (plan twoPads) [255, 255, 255, 9] := plan_lens (by decide)
  exact ⟨hlens, hlens.read_write 1 0 (-2), hlens.read_write_other 1 0 0 1 (-2) (by decide)⟩

end Layout
end PortCodec
