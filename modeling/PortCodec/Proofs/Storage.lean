import PortCodec.Proofs.Placement

/-! Where a layout keeps what. Walking the index in order, the buttons take the bits one by one and
the axes the words behind them, so the controls share nothing, fill the state up to the unused bits
of the last button byte, and the program names the same places. -/

namespace PortCodec

/-- The bits of a state that belong to a control, counted from the lowest bit of the first byte. -/
def Entry.Occupies (e : Entry) (b : ℕ) : Prop :=
  if e.kind = .button then b / 8 = e.offset ∧ e.mask.toNat.testBit (b % 8) = true
  else if e.kind.isAxis = true then b / 8 = e.offset ∨ b / 8 = e.offset + 1
  else False

instance (e : Entry) (b : ℕ) : Decidable (e.Occupies b) := by
  unfold Entry.Occupies
  infer_instance

theorem Entry.occupies_bit {e : Entry} {n : ℕ} (hk : e.kind = .button) (ho : e.offset = n / 8)
    (hm : e.mask = Bytes.bitMask n) (b : ℕ) : e.Occupies b ↔ b = n := by
  simp only [Entry.Occupies, hk, ho, hm, if_true, Bytes.testBit_bitMask, decide_eq_true_eq]
  omega

theorem exists_of_lt_countP {α : Type} {q : α → Bool} {xs : List α} {n : ℕ}
    (h : n < xs.countP q) : ∃ m x, xs[m]? = some x ∧ q x = true ∧ (xs.take m).countP q = n := by
  induction xs generalizing n with
  | nil => simp at h
  | cons a rest ih =>
    cases ha : q a with
    | false =>
      obtain ⟨m, x, hx, hq, hn⟩ := ih (n := n) (by simpa [List.countP_cons, ha] using h)
      exact ⟨m + 1, x, hx, hq, by simpa [List.countP_cons, ha] using hn⟩
    | true =>
      cases n with
      | zero => exact ⟨0, a, rfl, ha, rfl⟩
      | succ n =>
        obtain ⟨m, x, hx, hq, hn⟩ := ih (n := n) (by simpa [List.countP_cons, ha] using h)
        exact ⟨m + 1, x, hx, hq, by simpa [List.countP_cons, ha] using hn⟩

namespace Layout
open Bytes

/-- What is placed after a row of controls of the given kinds. -/
def Placed.after (placed : Placed) (ks : List Kind) : Placed :=
  ⟨placed.bits + ks.countP (· = .button), placed.axes + ks.countP (·.isAxis)⟩

/-- The entry of slot `n` of an index, when `placed` controls come before it. -/
def slotEntry (base stride n : ℕ) (placed : Placed) (k : Kind) : Entry :=
  { place base placed { kind := k } with controller := n / stride, control := n % stride }

def slotEntries (base stride : ℕ) : ℕ → Placed → List Kind → List Entry
  | _, _, [] => []
  | n, placed, k :: ks =>
    slotEntry base stride n placed k ::
      slotEntries base stride (n + 1) (placed.next { kind := k }) ks

/-- The kinds of all slots: those of the controls, filled up to the stride for each controller. -/
def slotKinds (stride : ℕ) (cs : List Controller) : List Kind :=
  cs.flatMap fun c =>
    c.controls.map (·.kind) ++ List.replicate (stride - c.controls.length) Kind.null

/-- The kinds of the slots of one controller. -/
theorem slotKinds_cons (stride : ℕ) (c : Controller) (cs : List Controller) :
    slotKinds stride (c :: cs) = c.controls.map (·.kind) ++
      (List.replicate (stride - c.controls.length) Kind.null ++ slotKinds stride cs) := by
  rw [slotKinds, List.flatMap_cons, List.append_assoc, slotKinds]

theorem Placed.next_kind (placed : Placed) (c : Control) :
    placed.next { kind := c.kind } = placed.next c := rfl

theorem Placed.after_cons (placed : Placed) (k : Kind) (ks : List Kind) :
    placed.after (k :: ks) = (placed.next { kind := k }).after ks := by
  unfold Placed.after Placed.next
  cases k <;> simp [Kind.isAxis] <;> omega

theorem Placed.after_null (placed : Placed) (n : ℕ) :
    placed.after (List.replicate n .null) = placed := by
  simp [Placed.after, List.countP_replicate, Kind.isAxis]

theorem slotEntries_append (base stride n : ℕ) (placed : Placed) (ks ks' : List Kind) :
    slotEntries base stride n placed (ks ++ ks') =
      slotEntries base stride n placed ks ++
        slotEntries base stride (n + ks.length) (placed.after ks) ks' := by
  induction ks generalizing n placed with
  | nil => simp [slotEntries, Placed.after]
  | cons k ks ih =>
    rw [List.cons_append, slotEntries, ih, slotEntries, Placed.after_cons, List.length_cons,
      List.cons_append, Nat.add_assoc, Nat.add_comm 1]

/-- Slot `n + m` has the kind it is given, at the place behind the controls before it. -/
theorem slotEntries_getElem? (base stride n : ℕ) (placed : Placed) (ks : List Kind) (m : ℕ) :
    (slotEntries base stride n placed ks)[m]? =
      ks[m]?.map (slotEntry base stride (n + m) (placed.after (ks.take m))) := by
  induction ks generalizing n placed m with
  | nil => simp [slotEntries]
  | cons k ks ih =>
    cases m with
    | zero => simp [slotEntries, Placed.after]
    | succ m =>
      rw [slotEntries, List.getElem?_cons_succ, ih, List.getElem?_cons_succ, List.take_succ_cons,
        Placed.after_cons, show n + 1 + m = n + (m + 1) by omega]

theorem slot_div {k i stride : ℕ} (h : i < stride) : (k * stride + i) / stride = k := by
  rw [Nat.mul_comm, Nat.mul_add_div (by omega), Nat.div_eq_of_lt h, Nat.add_zero]

theorem slot_mod {k i stride : ℕ} (h : i < stride) : (k * stride + i) % stride = i := by
  rw [Nat.mul_comm, Nat.mul_add_mod, Nat.mod_eq_of_lt h]

theorem planControls_eq_slotEntries {base stride k i : ℕ} (placed : Placed) {cs : List Control}
    (h : i + cs.length ≤ stride) :
    (planControls base k i placed cs).1 =
      slotEntries base stride (k * stride + i) placed (cs.map (·.kind)) := by
  induction cs generalizing i placed with
  | nil => rfl
  | cons c cs ih =>
    have hi : i < stride := by simp at h; omega
    have hrest := ih (i := i + 1) (placed.next c) (by simp at h ⊢; omega)
    rw [List.map_cons, slotEntries, Placed.next_kind, slotEntry, slot_div hi,
      slot_mod hi, planControls, Nat.add_assoc, ← hrest]
    rfl

theorem padding_eq_slotEntries (base : ℕ) {stride k used : ℕ} (placed : Placed) :
    padding k used stride =
      slotEntries base stride (k * stride + used) placed
        (List.replicate (stride - used) .null) := by
  apply List.ext_getElem?
  intro m
  rw [slotEntries_getElem?, padding, List.getElem?_map, List.getElem?_replicate]
  by_cases hm : m < stride - used
  · have hi : used + m < stride := by omega
    rw [List.getElem?_range' hm, if_pos hm, Nat.add_assoc]
    simp [slotEntry, slot_div hi, slot_mod hi, place, Kind.isAxis]
  · simp [hm]

/-- The index of a plan is known from the kinds of its slots. -/
theorem planControllers_eq_slotEntries (base : ℕ) {stride : ℕ} (system : Bool) (k : ℕ)
    (placed : Placed)
    {cs : List Controller} (h : ∀ c ∈ cs, c.controls.length ≤ stride) :
    (planControllers base stride system k placed cs).1 =
      slotEntries base stride (k * stride) placed (slotKinds stride cs) := by
  induction cs generalizing k placed with
  | nil => rfl
  | cons c cs ih =>
    have hc := h c (by simp)
    have hafter : placed.after (c.controls.map (·.kind)) = c.controls.foldl Placed.next placed := by
      rw [foldl_next, Placed.after, List.countP_map, List.countP_map]
      rfl
    have hnext : k * stride + (c.controls.length + (stride - c.controls.length)) =
        (k + 1) * stride := by
      rw [Nat.add_mul]
      omega
    rw [planControllers_index_cons, planControls_eq_slotEntries placed (by simpa using hc),
      padding_eq_slotEntries base (c.controls.foldl Placed.next placed),
      ih (k + 1) _ (fun d hd => h d (by simp [hd])), slotKinds_cons, slotEntries_append,
      slotEntries_append, hafter, Placed.after_null, List.length_map, List.length_replicate,
      Nat.add_assoc, hnext]
    rfl

theorem plan_index_eq (p : Port) :
    (plan p).index = slotEntries (((plan p).buttonBits + 7) / 8) (plan p).stride 0 {}
      (slotKinds (plan p).stride p.controllers) := by
  have h := planControllers_eq_slotEntries (((plan p).buttonBits + 7) / 8) p.isSystem 0 {}
    (fun c hc => length_le_stride (p := p) hc)
  rwa [Nat.zero_mul] at h

theorem countP_slotKinds (q : Kind → Bool) (hq : q .null = false) (stride : ℕ)
    (cs : List Controller) :
    (slotKinds stride cs).countP q = (cs.flatMap (·.controls)).countP fun c => q c.kind := by
  induction cs with
  | nil => rfl
  | cons c cs ih =>
    rw [slotKinds_cons, List.countP_append, List.countP_append, ih, List.flatMap_cons,
      List.countP_append, List.countP_map, List.countP_replicate, hq]
    simp [Function.comp_def]

theorem plan_buttonBits (p : Port) :
    (plan p).buttonBits = (slotKinds (plan p).stride p.controllers).countP (· = .button) :=
  (countP_slotKinds (· = .button) rfl _ _).symm

theorem plan_axes (p : Port) :
    (plan p).axes = (slotKinds (plan p).stride p.controllers).countP (·.isAxis) :=
  (countP_slotKinds (·.isAxis) rfl _ _).symm

theorem length_slotKinds {stride : ℕ} {cs : List Controller}
    (h : ∀ c ∈ cs, c.controls.length ≤ stride) :
    (slotKinds stride cs).length = cs.length * stride := by
  induction cs with
  | nil => simp [slotKinds]
  | cons c cs ih =>
    have hc := h c (by simp)
    rw [slotKinds_cons, List.length_append, List.length_append,
      ih (fun d hd => h d (by simp [hd])), List.length_cons, Nat.add_mul]
    simp
    omega

/-- The kind of a slot: that of its control, or none past the controls of its controller. -/
theorem slotKinds_getElem? {stride : ℕ} {cs : List Controller}
    (h : ∀ c ∈ cs, c.controls.length ≤ stride) {k i : ℕ} (hi : i < stride) :
    (slotKinds stride cs)[k * stride + i]? =
      cs[k]?.map fun c => (c.controls[i]?.map (·.kind)).getD .null := by
  induction cs generalizing k with
  | nil => simp [slotKinds]
  | cons c cs ih =>
    have hc := h c (by simp)
    have hlen : (c.controls.map (·.kind) ++
        List.replicate (stride - c.controls.length) Kind.null).length = stride := by
      simp
      omega
    rw [slotKinds_cons, ← List.append_assoc]
    cases k with
    | zero =>
      rw [Nat.zero_mul, Nat.zero_add, List.getElem?_append_left (by rw [hlen]; exact hi),
        List.getElem?_append, List.getElem?_replicate, List.length_map]
      by_cases hu : i < c.controls.length
      · simp [hu]
      · have hr : i - c.controls.length < stride - c.controls.length := by omega
        simp [hu, hr]
    | succ k =>
      rw [List.getElem?_append_right (by rw [hlen, Nat.add_mul]; omega), hlen,
        show (k + 1) * stride + i - stride = k * stride + i by rw [Nat.add_mul]; omega,
        ih (fun d hd => h d (by simp [hd])), List.getElem?_cons_succ]

/-- A slot of the index, with the controls before it counted by their kinds. -/
theorem plan_slot {p : Port} {n : ℕ} {e : Entry} (h : (plan p).index[n]? = some e) :
    ∃ k, (slotKinds (plan p).stride p.controllers)[n]? = some k ∧
      e = slotEntry (((plan p).buttonBits + 7) / 8) (plan p).stride n
        (Placed.after {} ((slotKinds (plan p).stride p.controllers).take n)) k := by
  rw [plan_index_eq, slotEntries_getElem?, Nat.zero_add, Option.map_eq_some_iff] at h
  obtain ⟨k, hk, rfl⟩ := h
  exact ⟨k, hk, rfl⟩

theorem countP_take_lt {q : Kind → Bool} {ks : List Kind} {m n : ℕ} {k : Kind}
    (hk : ks[m]? = some k)
    (hq : q k = true) (h : m < n) : (ks.take m).countP q < (ks.take n).countP q := by
  have hm : m < ks.length := (List.getElem?_eq_some_iff.1 hk).1
  have hle : (ks.take (m + 1)).countP q ≤ (ks.take n).countP q :=
    (List.take_prefix_take_left (by omega)).sublist.countP_le
  have hs : (ks.take (m + 1)).countP q = (ks.take m).countP q + 1 := by
    rw [List.take_add_one, hk, List.countP_append]
    simp [hq]
  omega

theorem countP_take_lt_countP {q : Kind → Bool} {ks : List Kind} {m : ℕ} {k : Kind}
    (hk : ks[m]? = some k) (hq : q k = true) : (ks.take m).countP q < ks.countP q := by
  have hm : m < ks.length := (List.getElem?_eq_some_iff.1 hk).1
  have := countP_take_lt hk hq hm
  rwa [List.take_length] at this

theorem occupies_button {base stride n : ℕ} {placed : Placed} {b : ℕ} :
    (slotEntry base stride n placed .button).Occupies b ↔ b = placed.bits :=
  Entry.occupies_bit rfl rfl rfl b

theorem occupies_axis {base stride n : ℕ} {placed : Placed} {k : Kind} (hk : k.isAxis = true)
    {b : ℕ} : (slotEntry base stride n placed k).Occupies b ↔
      b / 8 = base + 2 * placed.axes ∨ b / 8 = base + 2 * placed.axes + 1 := by
  have hb : k ≠ .button := by
    rintro rfl
    simp [Kind.isAxis] at hk
  simp [slotEntry, place, Entry.Occupies, hb, hk]

theorem occupies_cases {base stride n : ℕ} {placed : Placed} {k : Kind} {b : ℕ}
    (h : (slotEntry base stride n placed k).Occupies b) :
    k = .button ∧ b = placed.bits ∨
      k.isAxis = true ∧ (b / 8 = base + 2 * placed.axes ∨ b / 8 = base + 2 * placed.axes + 1) := by
  by_cases hb : k = .button
  · subst hb
    exact Or.inl ⟨rfl, occupies_button.1 h⟩
  · by_cases ha : k.isAxis = true
    · exact Or.inr ⟨ha, (occupies_axis ha).1 h⟩
    · simp [slotEntry, place, Entry.Occupies, hb, ha] at h

/-- The place of an occupied bit: a bit of its own before the words, or half of a word of its
own. -/
theorem plan_occupies {p : Port} {n : ℕ} {e : Entry} (he : (plan p).index[n]? = some e) {b : ℕ}
    (h : e.Occupies b) :
    let ks := slotKinds (plan p).stride p.controllers
    let base := ((plan p).buttonBits + 7) / 8
    (ks[n]? = some .button ∧ b = (ks.take n).countP (· = .button) ∧ b < (plan p).buttonBits) ∨
      ∃ k, ks[n]? = some k ∧ k.isAxis = true ∧ (ks.take n).countP (·.isAxis) < (plan p).axes ∧
        (b / 8 = base + 2 * (ks.take n).countP (·.isAxis) ∨
          b / 8 = base + 2 * (ks.take n).countP (·.isAxis) + 1) := by
  intro ks base
  obtain ⟨k, hk, rfl⟩ := plan_slot he
  rcases occupies_cases h with ⟨rfl, hb⟩ | ⟨ha, hb⟩
  · have hlt := countP_take_lt_countP (q := (· = .button)) hk (by simp)
    rw [← plan_buttonBits] at hlt
    simp only [Placed.after, Nat.zero_add] at hb
    exact Or.inl ⟨hk, hb, by omega⟩
  · have hlt := countP_take_lt_countP (q := (·.isAxis)) hk ha
    rw [← plan_axes] at hlt
    simp only [Placed.after, Nat.zero_add] at hb
    exact Or.inr ⟨k, hk, ha, hlt, hb⟩

/-- No bit belongs to two slots. -/
theorem plan_disjoint {p : Port} {m n : ℕ} {e f : Entry} (he : (plan p).index[m]? = some e)
    (hf : (plan p).index[n]? = some f) (hmn : m < n) {b : ℕ} (hb : e.Occupies b) :
    ¬ f.Occupies b := by
  intro hb'
  rcases plan_occupies he hb with ⟨hk, h1, h2⟩ | ⟨k, hk, ha, -, h1⟩ <;>
    rcases plan_occupies hf hb' with ⟨hk', h3, h4⟩ | ⟨k', hk', ha', -, h3⟩
  · have := countP_take_lt (q := (· = .button)) hk (by simp) hmn
    omega
  · omega
  · omega
  · have := countP_take_lt (q := (·.isAxis)) hk ha hmn
    omega

theorem plan_inside {p : Port} {e : Entry} (he : e ∈ (plan p).index) {b : ℕ} (h : e.Occupies b) :
    b < 8 * (plan p).storageSize := by
  obtain ⟨n, hn⟩ := List.mem_iff_getElem?.1 he
  have hs : (plan p).storageSize = ((plan p).buttonBits + 7) / 8 + 2 * (plan p).axes := rfl
  rcases plan_occupies hn h with ⟨-, -, h2⟩ | ⟨-, -, -, h2, h3⟩ <;> omega

theorem exists_slot {p : Port} {n : ℕ} {k : Kind}
    (hk : (slotKinds (plan p).stride p.controllers)[n]? = some k) :
    slotEntry (((plan p).buttonBits + 7) / 8) (plan p).stride n
      (Placed.after {} ((slotKinds (plan p).stride p.controllers).take n)) k ∈ (plan p).index := by
  apply List.mem_of_getElem? (i := n)
  rw [plan_index_eq, slotEntries_getElem?, hk, Nat.zero_add]
  rfl

/-- Every bit of the state belongs to a control, but for those behind the last button. -/
theorem plan_covered {p : Port} {b : ℕ} (hb : b < 8 * (plan p).storageSize) :
    (∃ e ∈ (plan p).index, e.Occupies b) ↔
      ¬ ((plan p).buttonBits ≤ b ∧ b < 8 * (((plan p).buttonBits + 7) / 8)) := by
  have hs : (plan p).storageSize = ((plan p).buttonBits + 7) / 8 + 2 * (plan p).axes := rfl
  constructor
  · rintro ⟨e, he, ho⟩ ⟨h1, h2⟩
    obtain ⟨n, hn⟩ := List.mem_iff_getElem?.1 he
    rcases plan_occupies hn ho with ⟨-, -, h3⟩ | ⟨-, -, -, -, h3⟩ <;> omega
  · intro h
    by_cases hbit : b < (plan p).buttonBits
    · rw [plan_buttonBits] at hbit
      obtain ⟨n, k, hk, hq, hn⟩ := exists_of_lt_countP hbit
      obtain rfl : k = .button := by simpa using hq
      refine ⟨_, exists_slot hk, occupies_button.2 ?_⟩
      simp [Placed.after, hn]
    · -- the bit is in the word of the axis with that number
      have hword : (b / 8 - ((plan p).buttonBits + 7) / 8) / 2 < (plan p).axes := by omega
      rw [plan_axes] at hword
      obtain ⟨n, k, hk, hq, hn⟩ := exists_of_lt_countP hword
      refine ⟨_, exists_slot hk, (occupies_axis hq).2 ?_⟩
      simp only [Placed.after, Nat.zero_add, hn]
      omega

end Layout
end PortCodec
