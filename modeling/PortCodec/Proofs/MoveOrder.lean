import Mathlib.Order.Preorder.Finite
import Mathlib.Dynamics.PeriodicPts.Defs
import PortCodec.Program.Routine

/-! Moves between registers in an order in which none overwrites what a later one reads. Whichever
move is taken first, what is left over when no move can be taken holds a circle, and a circle is
never broken up. -/

namespace PortCodec.Program

open X86

variable {moves before rest ordered : List Move} {m : Move} {fuel : ℕ}

/-- Registers in a circle, each of which is moved to the next. -/
def Move.Circular (moves : List Move) : Prop :=
  ∃ c : Cycle Register, c.Nodup ∧ 2 ≤ c.length ∧ c.Chain fun r s => ⟨s, r⟩ ∈ moves

/-- The move that is picked overwrites no source of the others. -/
theorem Move.pick_eq_some (h : pick before moves = some (m, rest)) :
    (m :: rest).Perm (before ++ moves) ∧ ∀ o ∈ rest, o.src ≠ m.dst := by
  induction moves generalizing before with
  | nil => cases h
  | cons o after ih =>
    rw [pick] at h
    split_ifs at h with hread
    · rw [List.append_cons]
      exact ih h
    · cases h
      refine ⟨List.perm_middle.symm, fun o ho heq => hread ?_⟩
      exact List.any_eq_true.2 ⟨o, ho, decide_eq_true heq⟩

/-- Where no move can be picked, each target is still read. -/
theorem Move.pick_eq_none (h : pick before moves = none) :
    ∀ m ∈ moves, ∃ o ∈ before ++ moves, o.src = m.dst := by
  induction moves generalizing before with
  | nil => simp
  | cons m after ih =>
    rw [pick] at h
    split_ifs at h with hread
    obtain ⟨o, ho, heq⟩ := List.any_eq_true.1 hread
    intro k hk
    rcases List.mem_cons.1 hk with rfl | hk
    · refine ⟨o, ?_, of_decide_eq_true heq⟩
      rcases List.mem_append.1 ho with ho | ho <;> simp [ho]
    · simpa using ih h k hk

theorem Move.order_eq_some (h : order fuel moves = some ordered) :
    ordered.Perm moves ∧ ordered.Pairwise fun m o => o.src ≠ m.dst := by
  induction fuel generalizing moves ordered with
  | zero =>
    cases moves with
    | nil => cases h; exact ⟨.nil, .nil⟩
    | cons => cases h
  | succ fuel ih =>
    cases moves with
    | nil => cases h; exact ⟨.nil, .nil⟩
    | cons m₀ more =>
      obtain ⟨⟨m, rest⟩, hpick, htail⟩ := Option.bind_eq_some_iff.1 h
      obtain ⟨tail, horder, hcons⟩ := Option.bind_eq_some_iff.1 htail
      cases hcons
      obtain ⟨hperm, hfree⟩ := pick_eq_some hpick
      obtain ⟨htail, hpairs⟩ := ih horder
      exact ⟨(htail.cons m).trans hperm,
        .cons (fun o ho => hfree o (htail.subset ho)) hpairs⟩

/-- Moves that cannot be put in order hold some that wait for each other. -/
theorem Move.order_eq_none (hfuel : moves.length ≤ fuel) (h : order fuel moves = none) :
    ∃ stuck : List Move, stuck ≠ [] ∧ stuck ⊆ moves ∧ ∀ m ∈ stuck, ∃ o ∈ stuck, o.src = m.dst := by
  induction fuel generalizing moves with
  | zero =>
    obtain rfl := List.length_eq_zero_iff.1 (Nat.le_zero.1 hfuel)
    cases h
  | succ fuel ih =>
    cases moves with
    | nil => cases h
    | cons m₀ more =>
      cases hpick : pick [] (m₀ :: more) with
      | none => exact ⟨m₀ :: more, List.cons_ne_nil _ _, List.Subset.refl _, pick_eq_none hpick⟩
      | some picked =>
        obtain ⟨m, rest⟩ := picked
        have hperm := (pick_eq_some hpick).1
        have hlen := hperm.length_eq
        have hrest : order fuel rest = none := by
          by_contra hsome
          obtain ⟨tail, htail⟩ := Option.ne_none_iff_exists'.1 hsome
          simp [order, hpick, htail] at h
        obtain ⟨stuck, hne, hsub, hwait⟩ := ih (by simp at hlen hfuel; omega) hrest
        exact ⟨stuck, hne, fun o ho => hperm.subset (List.mem_cons_of_mem m (hsub ho)), hwait⟩

/-- Moves that wait for each other go in a circle. -/
theorem Move.circular_of_stuck {stuck : List Move} (hne : stuck ≠ []) (hsub : stuck ⊆ moves)
    (hwait : ∀ m ∈ stuck, ∃ o ∈ stuck, o.src = m.dst) (hproper : ∀ m ∈ moves, m.src ≠ m.dst) :
    Circular moves := by
  -- from a target on to the target of a move that reads it
  have hread (r : Register) :
      ∃ s, r ∈ stuck.map (·.dst) → s ∈ stuck.map (·.dst) ∧ ⟨s, r⟩ ∈ stuck := by
    by_cases hr : r ∈ stuck.map (·.dst)
    · obtain ⟨m, hm, rfl⟩ := List.mem_map.1 hr
      obtain ⟨⟨s, -⟩, ho, rfl⟩ := hwait m hm
      exact ⟨s, fun _ => ⟨List.mem_map_of_mem ho, ho⟩⟩
    · exact ⟨r, fun h => absurd h hr⟩
  choose next hnext using hread
  obtain ⟨m, hm⟩ := List.exists_mem_of_ne_nil stuck hne
  have hreach (n : ℕ) : next^[n] m.dst ∈ {r | r ∈ stuck.map (·.dst)} := by
    induction n with
    | zero => exact List.mem_map_of_mem hm
    | succ n ih =>
      rw [Function.iterate_succ_apply']
      exact (hnext _ ih).1
  obtain ⟨i, j, hij, heq⟩ := Set.Finite.exists_lt_map_eq_of_forall_mem hreach (List.finite_toSet _)
  set r := next^[i] m.dst with hr
  have hperiod : Function.IsPeriodicPt next (j - i) r := by
    rw [Function.IsPeriodicPt, Function.IsFixedPt, hr, ← Function.iterate_add_apply,
      Nat.sub_add_cancel hij.le]
    exact heq.symm
  have hpts : r ∈ Function.periodicPts next := Function.mk_mem_periodicPts (by omega) hperiod
  have hlinks (n : ℕ) : ⟨next^[n + 1] r, next^[n] r⟩ ∈ stuck := by
    rw [Function.iterate_succ_apply', hr, ← Function.iterate_add_apply]
    exact (hnext _ (hreach _)).2
  refine ⟨Function.periodicOrbit next r, Function.nodup_periodicOrbit, ?_, ?_⟩
  · rw [Function.periodicOrbit_length]
    have hpos := Function.minimalPeriod_pos_of_mem_periodicPts hpts
    have hone : Function.minimalPeriod next r ≠ 1 := by
      rw [Ne, Function.minimalPeriod_eq_one_iff_isFixedPt]
      intro hfix
      exact hproper _ (hsub (hlinks 0)) hfix.symm
    omega
  · rw [Function.periodicOrbit_chain' _ hpts]
    exact fun n => hsub (hlinks n)

/-- Moves in order hold no set of moves that are each read by another of them. -/
theorem Move.not_closed {P : Move → Prop} (h : ordered.Pairwise fun m o => o.src ≠ m.dst)
    (hclosed : ∀ m ∈ ordered, P m → ∃ o ∈ ordered, P o ∧ o ≠ m ∧ o.src = m.dst) :
    ∀ m ∈ ordered, ¬ P m := by
  induction ordered with
  | nil => simp
  | cons k rest ih =>
    obtain ⟨hk, hrest⟩ := List.pairwise_cons.1 h
    have hfirst : ¬ P k := by
      intro hP
      obtain ⟨o, ho, -, hne, hsrc⟩ := hclosed k (by simp) hP
      exact hk o ((List.mem_cons.1 ho).resolve_left hne) hsrc
    have hothers := ih hrest fun m hm hP => by
      obtain ⟨o, ho, hPo, hne, hsrc⟩ := hclosed m (List.mem_cons_of_mem k hm) hP
      refine ⟨o, (List.mem_cons.1 ho).resolve_left ?_, hPo, hne, hsrc⟩
      rintro rfl
      exact hfirst hPo
    intro m hm
    rcases List.mem_cons.1 hm with rfl | hm
    · exact hfirst
    · exact hothers m hm

theorem exists_next_of_chain {α : Type} {R : α → α → Prop} {c : Cycle α} (h : c.Chain R) {x : α}
    (hx : x ∈ c) : ∃ y ∈ c, R x y := by
  induction c using Cycle.induction_on with
  | nil => exact absurd hx (Cycle.notMem_nil x)
  | cons a l _ =>
    rw [Cycle.chain_coe_cons, ← List.cons_append] at h
    obtain ⟨pre, post, hl⟩ := List.append_of_mem (Cycle.mem_coe_iff.1 hx)
    simp only [Cycle.mem_coe_iff]
    rw [hl, List.append_assoc] at h
    have hlinks := h.right_of_append
    cases post with
    | nil => exact ⟨a, List.mem_cons_self, (List.isChain_cons_cons.1 hlinks).1⟩
    | cons y post => exact ⟨y, by rw [hl]; simp, (List.isChain_cons_cons.1 hlinks).1⟩

/-- Moves that go in a circle cannot be put in order. -/
theorem Move.order_eq_none_iff (hproper : ∀ m ∈ moves, m.src ≠ m.dst) :
    order moves.length moves = none ↔ Circular moves := by
  constructor
  · intro h
    obtain ⟨stuck, hne, hsub, hwait⟩ := order_eq_none le_rfl h
    exact circular_of_stuck hne hsub hwait hproper
  · rintro ⟨c, -, hlen, hchain⟩
    by_contra hsome
    obtain ⟨ordered, horder⟩ := Option.ne_none_iff_exists'.1 hsome
    obtain ⟨hperm, hpairs⟩ := order_eq_some horder
    obtain ⟨r, hr⟩ : ∃ r, r ∈ c := by
      induction c using Cycle.induction_on with
      | nil => exact absurd hlen (by decide)
      | cons a l _ => exact ⟨a, Cycle.mem_coe_iff.2 List.mem_cons_self⟩
    obtain ⟨s, hs, hrs⟩ := exists_next_of_chain hchain hr
    refine not_closed (P := fun m => m.dst ∈ c) hpairs (fun m hm hdst => ?_) _
      (hperm.symm.subset hrs) hs
    obtain ⟨t, ht, hlink⟩ := exists_next_of_chain hchain hdst
    refine ⟨_, hperm.symm.subset hlink, ht, ?_, rfl⟩
    intro heq
    exact hproper _ hlink (congrArg Move.dst heq).symm

end PortCodec.Program
