import PortCodec.Proofs.Storage

/-! What every plan promises to those who use it: where each control is stored, how the index is
laid out, and that the program spells the controls at the places of the index. -/

namespace PortCodec

namespace Layout
open Bytes

/-- The controls declared before control `i` of controller `k`. -/
def declaredBefore (p : Port) (k i : ℕ) : List Control :=
  (p.controllers.take k).flatMap (·.controls) ++
    ((p.controllers[k]?.map (·.controls)).getD []).take i

def controlAt? (p : Port) (k i : ℕ) : Option Control := p.controllers[k]?.bind (·.controls[i]?)

def spelling (e : Entry) (movie : UInt8) : List Step :=
  match e.kind with
  | .button => [.button e.offset e.mask movie]
  | .axis | .reverseAxis | .triggerAxis | .lightgunAxis => [.axis e.offset]
  | .null | .unknown _ => []

/-- The steps that spell the controls of a controller, from control `i` on. -/
def spellControls (l : Layout) (k i : ℕ) (cs : List Control) : List Step :=
  (cs.zipIdx i).flatMap fun (c, j) =>
    match l.lookup? k j with
    | some e => spelling e c.movie
    | none => []

/-- Controls take the bits and, behind the button bytes, the words in the order of declaration. They
share no bit, stay inside the state, and leave out the bits behind the last button only. -/
structure StoresInOrder (p : Port) (l : Layout) : Prop where
  buttonBits : l.buttonBits = (controlsOf p).countP (·.kind = .button)
  axes : l.axes = (controlsOf p).countP (·.kind.isAxis)
  storageSize : l.storageSize = (l.buttonBits + 7) / 8 + 2 * l.axes
  button : ∀ k i c n, controlAt? p k i = some c → c.kind = .button →
    n = (declaredBefore p k i).countP (·.kind = .button) →
      ∃ e, l.lookup? k i = some e ∧ e.kind = .button ∧ e.offset = n / 8 ∧
        e.mask.toNat = 2 ^ (n % 8) ∧ ∀ b, e.Occupies b ↔ b = n
  axis : ∀ k i c n, controlAt? p k i = some c → c.kind.isAxis = true →
    n = (declaredBefore p k i).countP (·.kind.isAxis) →
      ∃ e, l.lookup? k i = some e ∧ e.kind = c.kind ∧ e.offset = (l.buttonBits + 7) / 8 + 2 * n ∧
        ∀ b, e.Occupies b ↔ b / 8 = e.offset ∨ b / 8 = e.offset + 1
  disjoint : ∀ (m n : ℕ) (e f : Entry), l.index[m]? = some e → l.index[n]? = some f → m ≠ n →
    ∀ b, ¬ (e.Occupies b ∧ f.Occupies b)
  inside : ∀ e ∈ l.index, ∀ b, e.Occupies b → b < 8 * l.storageSize
  covered : ∀ b < 8 * l.storageSize, (∃ e ∈ l.index, e.Occupies b) ↔
    ¬ (l.buttonBits ≤ b ∧ b < 8 * ((l.buttonBits + 7) / 8))

/-- The index has a row of slots for each controller, as many as the least power of two that no
controller exceeds. Each slot names its own place and has the kind of its control. -/
structure IndexesAll (p : Port) (l : Layout) : Prop where
  power : ∃ j, l.stride = 2 ^ j
  wide : ∀ c ∈ p.controllers, c.controls.length ≤ l.stride
  least : ∀ j, (∀ c ∈ p.controllers, c.controls.length ≤ 2 ^ j) → l.stride ≤ 2 ^ j
  controllers : l.controllers = p.controllers.length
  length : l.index.length = l.controllers * l.stride
  slot : ∀ k < l.controllers, ∀ i < l.stride, ∃ e, l.index[k * l.stride + i]? = some e ∧
    l.lookup? k i = some e ∧ e.controller = k ∧ e.control = i ∧
      e.kind = ((controlAt? p k i).map (·.kind)).getD .null

/-- The program spells the controllers at the places of the index, a separator between two of them
and in front of the first unless the port fits slot 0, and ends once, at its end. -/
structure SpellsIndex (p : Port) (l : Layout) : Prop where
  program : l.program =
    (if p.isLegal 0 = false ∧ p.controllers ≠ [] then [Step.leadingPipe] else []) ++
      [Step.pipe].intercalate
        (p.controllers.zipIdx.map fun (c, k) => spellControls l k 0 c.controls) ++
      [if p.controllers = [] then .finishEmpty else .finish]
  ends : ∀ s ∈ l.program.dropLast, s.isEnd = false

theorem exists_powerAtLeast (n : ℕ) : ∃ j, powerAtLeast n = 2 ^ j := by
  unfold powerAtLeast
  split_ifs
  · exact ⟨0, rfl⟩
  · exact ⟨_, rfl⟩

theorem powerAtLeast_le {n j : ℕ} (h : n ≤ 2 ^ j) : powerAtLeast n ≤ 2 ^ j := by
  unfold powerAtLeast
  split_ifs with h1
  · exact Nat.one_le_two_pow
  · have hlog : (n - 1).log2 < j := (Nat.log2_lt (by omega)).2 (by omega)
    exact Nat.pow_le_pow_right (by norm_num) hlog

theorem foldl_max_le {ns : List ℕ} {m b : ℕ} (hm : m ≤ b) (h : ∀ n ∈ ns, n ≤ b) :
    ns.foldl max m ≤ b := by
  induction ns generalizing m with
  | nil => exact hm
  | cons n ns ih =>
    exact ih (max_le hm (h n (by simp))) (fun x hx => h x (by simp [hx]))

theorem stride_le {p : Port} {j : ℕ} (h : ∀ c ∈ p.controllers, c.controls.length ≤ 2 ^ j) :
    (plan p).stride ≤ 2 ^ j := by
  apply powerAtLeast_le
  apply foldl_max_le (Nat.zero_le _)
  intro n hn
  obtain ⟨c, hc, rfl⟩ := List.mem_map.1 hn
  exact h c hc

theorem split_at {α : Type} {xs : List α} {n : ℕ} {x : α} (h : xs[n]? = some x) :
    xs = xs.take n ++ x :: xs.drop (n + 1) ∧ (xs.take n).length = n := by
  obtain ⟨hn, rfl⟩ := List.getElem?_eq_some_iff.1 h
  exact ⟨by simp, by simp; omega⟩

/-- The entry of a control by the controls declared before it. -/
theorem lookup?_declared {p : Port} {k i : ℕ} {c : Control} (h : controlAt? p k i = some c) :
    (plan p).lookup? k i = some (entryAt (((plan p).buttonBits + 7) / 8) k i
      ⟨(declaredBefore p k i).countP (·.kind = .button),
        (declaredBefore p k i).countP (·.kind.isAxis)⟩ c) := by
  obtain ⟨d, hd, hc⟩ := Option.bind_eq_some_iff.1 h
  obtain ⟨hp, hk⟩ := split_at hd
  obtain ⟨hx, hi⟩ := split_at hc
  have hlook := lookup?_plan hp hx
  have hbefore : declaredBefore p k i =
      (p.controllers.take k).flatMap (·.controls) ++ d.controls.take i := by
    simp [declaredBefore, hd]
  rw [hk, hi, foldl_next, ← hbefore] at hlook
  simpa using hlook

theorem storesInOrder_plan (p : Port) : StoresInOrder p (plan p) where
  buttonBits := rfl
  axes := rfl
  storageSize := rfl
  button := by
    rintro k i c n hc hk rfl
    refine ⟨_, lookup?_declared hc, ?_⟩
    simp only [entryAt, place, hk, if_true]
    exact ⟨trivial, trivial, bitMask_toNat _, Entry.occupies_bit rfl rfl rfl⟩
  axis := by
    rintro k i c n hc hk rfl
    have hb : c.kind ≠ .button := by
      intro hb
      simp [hb, Kind.isAxis] at hk
    refine ⟨_, lookup?_declared hc, ?_⟩
    simp [entryAt, place, hk, hb, Entry.Occupies]
  disjoint := by
    rintro m n e f he hf hmn b ⟨h1, h2⟩
    rcases Nat.lt_or_gt_of_ne hmn with h | h
    · exact plan_disjoint he hf h h1 h2
    · exact plan_disjoint hf he h h2 h1
  inside := fun e he b h => plan_inside he h
  covered := fun b hb => plan_covered hb

theorem plan_index_length (p : Port) :
    (plan p).index.length = (plan p).controllers * (plan p).stride := by
  have h : ∀ (base stride n : ℕ) (placed : Placed) (ks : List Kind),
      (slotEntries base stride n placed ks).length = ks.length := by
    intro base stride n placed ks
    induction ks generalizing n placed with
    | nil => rfl
    | cons k ks ih => simp [slotEntries, ih]
  rw [plan_index_eq, h, length_slotKinds (fun c hc => length_le_stride hc)]
  rfl

/-- A pair of numbers inside the index finds the slot of its own. -/
theorem lookup?_plan_eq {p : Port} {k i : ℕ} (hk : k < (plan p).controllers)
    (hi : i < (plan p).stride) :
    ∃ e, (plan p).index[k * (plan p).stride + i]? = some e ∧ (plan p).lookup? k i = some e ∧
      e.controller = k ∧ e.control = i ∧ e.kind = ((controlAt? p k i).map (·.kind)).getD .null := by
  have hlook : (plan p).lookup? k i = (plan p).index[k * (plan p).stride + i]? := by
    unfold lookup?
    rw [if_pos (by omega)]
    simp
  have hk' : k < p.controllers.length := hk
  have hkind := slotKinds_getElem? (fun c hc => length_le_stride (p := p) hc) (k := k) hi
  rw [List.getElem?_eq_getElem hk', Option.map_some] at hkind
  have hcontrol : controlAt? p k i = p.controllers[k].controls[i]? := by
    simp [controlAt?, List.getElem?_eq_getElem hk']
  obtain ⟨e, he⟩ : ∃ e, (plan p).index[k * (plan p).stride + i]? = some e := by
    rw [plan_index_eq, slotEntries_getElem?, hkind]
    exact ⟨_, rfl⟩
  refine ⟨e, he, hlook.trans he, ?_⟩
  obtain ⟨kind, hk, rfl⟩ := plan_slot he
  obtain rfl := Option.some.inj (hkind.symm.trans hk)
  refine ⟨by simp [slotEntry, slot_div hi], by simp [slotEntry, slot_mod hi], ?_⟩
  rw [hcontrol]
  simp only [slotEntry, place]
  split_ifs <;> rfl

theorem indexesAll_plan (p : Port) : IndexesAll p (plan p) where
  power := exists_powerAtLeast _
  wide := fun _ hc => length_le_stride hc
  least := fun _ h => stride_le h
  controllers := rfl
  length := plan_index_length p
  slot := fun _ hk _ hi => lookup?_plan_eq hk hi

theorem stepOf_eq_spelling (base k i : ℕ) (placed : Placed) (c : Control) :
    stepOf c (entryAt base k i placed c) = spelling (entryAt base k i placed c) c.movie := by
  unfold stepOf entryAt place spelling
  cases hk : c.kind <;> simp [Kind.isAxis]

theorem spellControls_cons (l : Layout) (k i : ℕ) (c : Control) (cs : List Control) {e : Entry}
    (h : l.lookup? k i = some e) :
    spellControls l k i (c :: cs) = spelling e c.movie ++ spellControls l k (i + 1) cs := by
  rw [spellControls, List.zipIdx_cons, List.flatMap_cons]
  simp only [h]
  rfl

/-- The steps of a controller spell its controls at the places of the index. -/
theorem planControls_eq_spellControls {p : Port} {pre post : List Controller} {d : Controller}
    (hp : p.controllers = pre ++ d :: post) {cpre cs : List Control}
    (hd : d.controls = cpre ++ cs) :
    (planControls (((plan p).buttonBits + 7) / 8) pre.length cpre.length
        ((pre.flatMap (·.controls) ++ cpre).foldl Placed.next {}) cs).2.1 =
      spellControls (plan p) pre.length cpre.length cs := by
  induction cs generalizing cpre with
  | nil => rfl
  | cons c cs ih =>
    have hlook := lookup?_plan hp hd
    have hrest := @ih (cpre ++ [c]) (by simp [hd])
    rw [← List.append_assoc, List.foldl_concat, List.length_append, List.length_singleton] at hrest
    rw [planControls_steps_cons, stepOf_eq_spelling, hrest, spellControls_cons _ _ _ _ _ hlook]

theorem intercalate_cons {x : Step} {row : List Step} {rows : List (List Step)} :
    [x].intercalate (row :: rows) = row ++ rows.flatMap (x :: ·) := by
  induction rows generalizing row with
  | nil => simp [List.intercalate]
  | cons r rows ih =>
    rw [List.flatMap_cons, List.cons_append, ← ih]
    simp [List.intercalate]

/-- Behind the first controller every controller is spelled with a separator in front. -/
theorem planControllers_eq_flatMap {p : Port} {pre cs : List Controller}
    (hp : p.controllers = pre ++ cs) (hpre : pre ≠ []) :
    (planControllers (((plan p).buttonBits + 7) / 8) (plan p).stride p.isSystem pre.length
        ((pre.flatMap (·.controls)).foldl Placed.next {}) cs).2 =
      (cs.zipIdx pre.length).flatMap fun (c, k) =>
        .pipe :: spellControls (plan p) k 0 c.controls := by
  induction cs generalizing pre with
  | nil => rfl
  | cons c cs ih =>
    have hrow := planControls_eq_spellControls hp (show c.controls = [] ++ c.controls from rfl)
    have hrest := @ih (pre ++ [c]) (by simp [hp]) (by simp)
    have hsep : separator p.isSystem pre.length = [.pipe] := by simp [separator, hpre]
    rw [List.append_nil, List.length_nil] at hrow
    rw [List.flatMap_append, List.flatMap_singleton, List.foldl_append, List.length_append,
      List.length_singleton] at hrest
    rw [planControllers_steps_cons, hsep, hrow, hrest, List.zipIdx_cons, List.flatMap_cons]
    rfl

theorem body_eq_spelling (p : Port) :
    body p = (if p.isLegal 0 = false ∧ p.controllers ≠ [] then [Step.leadingPipe] else []) ++
      [Step.pipe].intercalate
        (p.controllers.zipIdx.map fun (c, k) => spellControls (plan p) k 0 c.controls) := by
  have hbody :
      body p = (planControllers (((plan p).buttonBits + 7) / 8) (plan p).stride p.isSystem 0
      {} p.controllers).2 := rfl
  rw [hbody]
  cases hc : p.controllers with
  | nil => simp [planControllers, List.intercalate]
  | cons c cs =>
    have hfirst : p.controllers = [] ++ c :: cs := hc
    have hrow := planControls_eq_spellControls hfirst (show c.controls = [] ++ c.controls from rfl)
    have hrest := planControllers_eq_flatMap (show p.controllers = [c] ++ cs from hc) (by simp)
    have hsep : separator p.isSystem 0 = if p.isLegal 0 = false then [.leadingPipe] else [] := by
      unfold separator Port.isSystem
      cases p.isLegal 0 <;> rfl
    simp only [List.flatMap_nil, List.append_nil, List.foldl_nil, List.length_nil] at hrow
    simp only [List.flatMap_singleton, List.length_singleton] at hrest
    rw [planControllers_steps_cons, hsep, hrow, hrest, List.zipIdx_cons, List.map_cons,
      intercalate_cons, List.flatMap_map, List.append_assoc]
    simp

theorem spellsIndex_plan (p : Port) : SpellsIndex p (plan p) where
  program := by
    rw [plan_program, body_eq_spelling, lastStep]
    cases p.controllers <;> rfl
  ends := by
    rw [plan_program, List.dropLast_concat]
    exact body_isEnd p

/-- A plan stores, indexes and spells the controls of its port. -/
theorem plan_invariant (p : Port) :
    StoresInOrder p (plan p) ∧ IndexesAll p (plan p) ∧ SpellsIndex p (plan p) :=
  ⟨storesInOrder_plan p, indexesAll_plan p, spellsIndex_plan p⟩

end Layout
end PortCodec
