import PortCodec.Proofs.Linking.Edited

/-! Labels and their bases. However code came about, a base is older than the labels that are
counted from it, so the way from a label over its bases comes to an end. What stands there, a place
in the code, an address or nothing, decides what is known of the label, and once it is known it
stays. -/

namespace PortCodec.Assembly

theorem signed64_add_signed64 (m n : ℤ) : signed64 (signed64 m + n) = signed64 (m + n) :=
  Int.bmod_add_bmod

/-- Addresses wrap around where signed numbers do. -/
theorem ofInt_signed64 (n : ℤ) : UInt64.ofInt (signed64 n) = UInt64.ofInt n := by
  unfold UInt64.ofInt signed64
  have h : n.bmod (2 ^ 64) % 2 ^ 64 = n % 2 ^ 64 := Int.bmod_emod
  rw [h]

theorem ofInt_natCast (n : ℕ) : UInt64.ofInt n = UInt64.ofNat n := by
  apply UInt64.toNat_inj.1
  rw [UInt64.ofInt, UInt64.toNat_ofNat', UInt64.toNat_ofNat']
  omega

end PortCodec.Assembly

namespace PortCodec.Assembler

open Assembly

variable {a b : Assembler} {l m k : ℤ} {x : Binding} {base : UInt64}

/-- A label is counted from another one. -/
def HasBase (a : Assembler) (l m : ℤ) : Prop := ∃ delta, a.binding? l = some (.relative m delta)

/-- A label, its base, the base of that, and so on. -/
abbrev Leads (a : Assembler) : ℤ → ℤ → Prop := Relation.ReflTransGen a.HasBase

section Order

/-- All labels fit the code. -/
def Ordered (a : Assembler) : Prop := ∀ l x, a.binding? l = some x → x.Fits a.size l

theorem ordered_empty : Ordered {} := by
  intro l x h
  simp [binding?] at h

theorem size_le_bytes (a : Assembler) (bs : Bytes) : a.size ≤ (a.bytes bs).size := by
  simp [size, bytes, X86.Emitter.size_append_bytes]

theorem Change.ordered (h : Change a b) (ha : Ordered a) : Ordered b := by
  intro l x hl
  cases h with
  | bytes bs => exact (ha l x hl).mono (size_le_bytes a bs)
  | relocate size patch target => exact (ha l x hl).mono (size_le_bytes _ _)
  | label hx =>
    rw [binding?_addLabel] at hl
    split_ifs at hl with hnew
    · obtain rfl := Option.some.inj hl
      rw [hnew]
      exact hx
    · exact ha l x hl
  | define hd =>
    rw [binding?_define hd] at hl
    obtain ⟨-, rfl⟩ := define_eq_ok hd
    split_ifs at hl
    · obtain rfl := Option.some.inj hl
      exact le_refl a.size
    · exact ha l x hl
  | exportAs name k =>
    unfold Assembler.exportAs at hl ⊢
    split_ifs at hl ⊢ <;> exact ha l x hl

theorem Changes.ordered (h : Changes a b) (ha : Ordered a) : Ordered b := by
  induction h with
  | refl => exact ha
  | tail _ hstep ih => exact hstep.ordered ih

end Order

section Chains

theorem chain_none (h : a.binding? l = none) : a.chain l = (.undefined l, 0) := by
  rw [chain]
  simp only [h]

theorem chain_unbound (h : a.binding? l = some .unbound) : a.chain l = (.undefined l, 0) := by
  rw [chain]
  simp only [h]

theorem chain_inside {o : ℕ} (h : a.binding? l = some (.inside o)) :
    a.chain l = (.inside o, 0) := by
  rw [chain]
  simp only [h]

theorem chain_external {address : UInt64} (h : a.binding? l = some (.external address)) :
    a.chain l = (.external address, 0) := by
  rw [chain]
  simp only [h]

theorem binding?_eq_none_iff : a.binding? l = none ↔ ¬ (0 ≤ l ∧ l < a.labels.size) := by
  unfold binding?
  split_ifs with h0
  · rw [Array.getElem?_eq_none_iff]
    omega
  · simp [h0]

variable (ha : Ordered a)
include ha

theorem Ordered.lt (h : a.HasBase l m) : 0 ≤ m ∧ m < l := by
  obtain ⟨delta, h⟩ := h
  exact ha l _ h

/-- There is no way over bases without an end. -/
theorem Ordered.wellFounded : WellFounded fun m l => a.HasBase l m := by
  refine Subrelation.wf ?_ (measure Int.toNat).wf
  intro m l h
  have := ha.lt h
  change m.toNat < l.toNat
  omega

/-- All labels on a way have the same anchor. -/
theorem Ordered.anchor_eq (h : a.Leads l k) : (a.chain l).1 = (a.chain k).1 := by
  induction h using Relation.ReflTransGen.head_induction_on with
  | refl => rfl
  | head hbase _ ih =>
    obtain ⟨delta, h⟩ := hbase
    rw [chain_relative h (ha _ _ h), ih]

/-- The anchor of a label is the last label on its way. -/
theorem Ordered.exists_anchor (l : ℤ) :
    match (a.chain l).1 with
    | .inside o => ∃ k, a.Leads l k ∧ a.binding? k = some (.inside o)
    | .external address => ∃ k, a.Leads l k ∧ a.binding? k = some (.external address)
    | .undefined _ => a.binding? l = none ∨ ∃ k, a.Leads l k ∧ a.binding? k = some .unbound := by
  induction l using ha.wellFounded.induction with
  | _ l ih =>
    cases h : a.binding? l with
    | none =>
      rw [chain_none h]
      exact .inl rfl
    | some x =>
      cases x with
      | unbound =>
        rw [chain_unbound h]
        exact .inr ⟨l, .refl, h⟩
      | inside o =>
        rw [chain_inside h]
        exact ⟨l, .refl, h⟩
      | external address =>
        rw [chain_external h]
        exact ⟨l, .refl, h⟩
      | relative m delta =>
        have hbase : a.HasBase l m := ⟨delta, h⟩
        have hlt := ha.lt hbase
        have hm := ih m hbase
        rw [chain_relative h hlt]
        cases hc : (a.chain m).1 with
        | inside o | external address =>
          simp only [hc] at hm ⊢
          obtain ⟨k, hk, hx⟩ := hm
          exact ⟨k, .head hbase hk, hx⟩
        | undefined j =>
          simp only [hc] at hm ⊢
          rcases hm with hm | ⟨k, hk, hx⟩
          -- a base is older than its label, so it exists if the label does
          · have hl := lt_of_binding?_isSome (Option.isSome_of_eq_some h)
            exact absurd ⟨hlt.1, hlt.2.trans hl.2⟩ (binding?_eq_none_iff.1 hm)
          · exact .inr ⟨k, .head hbase hk, hx⟩

/-- What is known of a label stays when the code grows. -/
theorem Ordered.chain_grows (h : Grows a b) (hl : ∀ j, (a.chain l).1 ≠ .undefined j) :
    b.chain l = a.chain l := by
  induction l using ha.wellFounded.induction with
  | _ l ih =>
    cases hx : a.binding? l with
    | none => exact absurd (by rw [chain_none hx]) (hl l)
    | some x =>
      cases x with
      | unbound => exact absurd (by rw [chain_unbound hx]) (hl l)
      | inside o => rw [chain_inside hx, chain_inside (h.labels l _ hx nofun)]
      | external address => rw [chain_external hx, chain_external (h.labels l _ hx nofun)]
      | relative m delta =>
        have hlt := ha _ _ hx
        rw [chain_relative hx hlt] at hl ⊢
        rw [chain_relative (h.labels l _ hx nofun) hlt, ih m ⟨delta, hx⟩ hl]

end Chains

section Answers

theorem offset_eq_true_iff {o : ℤ} :
    a.offset l = (o, true) ↔
      ∃ place sum, a.chain l = (.inside place, sum) ∧ o = signed64 (place + sum) := by
  unfold offset
  obtain ⟨anchor, sum⟩ := a.chain l
  cases anchor with
  | inside place => simp [eq_comm]
  | external address | undefined k => simp

/-- The place of a label and its address agree, wherever the code is. -/
theorem resolve_of_offset {o : ℤ} (h : a.offset l = (o, true)) :
    a.resolve l base = .ok (base + UInt64.ofInt o) := by
  obtain ⟨place, sum, hc, rfl⟩ := offset_eq_true_iff.1 h
  rw [resolve, hc, ofInt_signed64, UInt64.ofInt_add, ← UInt64.add_assoc, ofInt_natCast]

theorem resolve_eq_error_iff : (∃ c, a.resolve l base = .error c) ↔
    ∃ k, (a.chain l).1 = .undefined k := by
  unfold resolve
  obtain ⟨anchor, sum⟩ := a.chain l
  cases anchor <;> simp

variable (ha : Ordered a)
include ha

/-- The place of a label counts from that of its base. -/
theorem Ordered.offset_eq (l : ℤ) : a.offset l =
    match a.binding? l with
    | some (.inside o) => (signed64 o, true)
    | some (.relative m delta) => (signed64 ((a.offset m).1 + delta), (a.offset m).2)
    | some .unbound | some (.external _) | none => (0, false) := by
  cases h : a.binding? l with
  | none => rw [offset, chain_none h]; rfl
  | some x =>
    cases x with
    | unbound => rw [offset, chain_unbound h]; rfl
    | inside o => rw [offset, chain_inside h]; simp
    | external address => rw [offset, chain_external h]; rfl
    | relative m delta =>
      change a.offset l = (signed64 ((a.offset m).1 + delta), (a.offset m).2)
      unfold offset
      rw [chain_relative h (ha _ _ h)]
      generalize a.chain m = x
      obtain ⟨anchor, sum⟩ := x
      cases anchor with
      | inside o => simp only [signed64_add_signed64, add_assoc]
      | external address | undefined k => simp only [signed64_add_signed64]

/-- The address of a label counts from that of its base. -/
theorem Ordered.resolve_eq (l : ℤ) (base : UInt64) : a.resolve l base =
    match a.binding? l with
    | some (.inside o) => .ok (base + UInt64.ofNat o)
    | some (.external address) => .ok address
    | some (.relative m delta) => (a.resolve m base).map (· + UInt64.ofInt delta)
    | some .unbound | none => .error (.undefinedLabel l) := by
  cases h : a.binding? l with
  | none => rw [resolve, chain_none h]
  | some x =>
    cases x with
    | unbound => rw [resolve, chain_unbound h]
    | inside o => rw [resolve, chain_inside h]; exact congrArg _ (UInt64.add_zero _)
    | external address => rw [resolve, chain_external h]; exact congrArg _ (UInt64.add_zero _)
    | relative m delta => exact resolve_relative h (ha _ _ h) base

/-- A label without an address does not exist, or its last base was never bound. -/
theorem Ordered.resolve_fails_iff : (∃ c, a.resolve l base = .error c) ↔
    ¬ (0 ≤ l ∧ l < a.labels.size) ∨ ∃ k, a.Leads l k ∧ a.binding? k = some .unbound := by
  rw [resolve_eq_error_iff, ← binding?_eq_none_iff]
  constructor
  · rintro ⟨k, hk⟩
    have h := ha.exists_anchor l
    rw [hk] at h
    exact h
  · rintro (h | ⟨k, hk, h⟩)
    · exact ⟨l, by rw [chain_none h]⟩
    · exact ⟨k, by rw [ha.anchor_eq hk, chain_unbound h]⟩

/-- A label with an address but no place leads to an address outside of the code. -/
theorem Ordered.leads_external {address : UInt64} (hr : a.resolve l base = .ok address)
    (ho : (a.offset l).2 = false) :
    ∃ k address, a.Leads l k ∧ a.binding? k = some (.external address) := by
  have h := ha.exists_anchor l
  unfold resolve at hr
  unfold offset at ho
  generalize a.chain l = x at h hr ho
  obtain ⟨anchor, sum⟩ := x
  cases anchor with
  | inside o => cases ho
  | external address =>
    obtain ⟨k, hk, hx⟩ := h
    exact ⟨k, address, hk, hx⟩
  | undefined k => cases hr

end Answers

/-- What can be relied on of the labels of an assembler, at any time and for any number. -/
structure SoundLabels (a : Assembler) : Prop where
  base_lt : ∀ l m, a.HasBase l m → 0 ≤ m ∧ m < l
  inside_le : ∀ l o, a.binding? l = some (.inside o) → o ≤ a.size
  /-- What is defined keeps its place, whatever is done later. -/
  inside_kept : ∀ later l o, a.binding? l = some (.inside o) →
    (a.edited later).binding? l = some (.inside o)
  offset_kept : ∀ later l o, a.offset l = (o, true) → (a.edited later).offset l = (o, true)
  once : ∀ l x, a.binding? l = some x → x ≠ .unbound →
    a.define l = .error (.definedTwice l) ∧ (Edit.define l).apply a = a
  /-- Places and addresses are found by asking the base, again and again, up to a label that has
  none. -/
  terminates : WellFounded fun m l => a.HasBase l m
  offset_eq : ∀ l, a.offset l =
    match a.binding? l with
    | some (.inside o) => (signed64 o, true)
    | some (.relative m delta) => (signed64 ((a.offset m).1 + delta), (a.offset m).2)
    | some .unbound | some (.external _) | none => (0, false)
  resolve_eq : ∀ l base, a.resolve l base =
    match a.binding? l with
    | some (.inside o) => .ok (base + UInt64.ofNat o)
    | some (.external address) => .ok address
    | some (.relative m delta) => (a.resolve m base).map (· + UInt64.ofInt delta)
    | some .unbound | none => .error (.undefinedLabel l)
  resolve_of_offset :
    ∀ l o base, a.offset l = (o, true) → a.resolve l base = .ok (base + UInt64.ofInt o)
  leads_external : ∀ l base address, a.resolve l base = .ok address → (a.offset l).2 = false →
    ∃ k address, a.Leads l k ∧ a.binding? k = some (.external address)
  resolve_fails_iff : ∀ l base, (∃ c, a.resolve l base = .error c) ↔
    ¬ (0 ≤ l ∧ l < a.labels.size) ∨ ∃ k, a.Leads l k ∧ a.binding? k = some .unbound

/-- The labels of every assembler can be relied on, whatever was done to it. -/
theorem soundLabels (edits : List Edit) : SoundLabels (edited {} edits) := by
  have ha : Ordered (edited {} edits) := (changes_edited {} edits).ordered ordered_empty
  generalize edited {} edits = a at ha
  constructor
  case base_lt => exact fun l m h => ha.lt h
  case inside_le => exact fun l o h => ha l _ h
  case inside_kept => exact fun later l o h => (grows_edited a later).labels l _ h nofun
  case offset_kept =>
    intro later l o h
    obtain ⟨place, sum, hc, rfl⟩ := offset_eq_true_iff.1 h
    have hkept : (a.edited later).chain l = a.chain l :=
      ha.chain_grows (grows_edited a later) (by simp [hc])
    exact offset_eq_true_iff.2 ⟨place, sum, hkept.trans hc, rfl⟩
  case once =>
    intro l x h hx
    have hd : a.define l = .error (.definedTwice l) := by
      unfold define
      rw [h]
      cases x <;> first | rfl | exact absurd rfl hx
    exact ⟨hd, by rw [Edit.apply, hd]; rfl⟩
  case terminates => exact ha.wellFounded
  case offset_eq => exact ha.offset_eq
  case resolve_eq => exact ha.resolve_eq
  case resolve_of_offset => exact fun l o base h => resolve_of_offset h
  case leads_external => exact fun l base address hr ho => ha.leads_external hr ho
  case resolve_fails_iff => exact fun l base => ha.resolve_fails_iff

/-- A label three bytes before the code, counted from one that is bound later. -/
example : (edited {} [.newLabel, .relative 0 (-5), .bytes [1, 2], .define 0]).offset 1 =
  (-3, true) := by decide +kernel

end PortCodec.Assembler
