import PortCodec.Proofs.PlanInvariant

/-! How much text a program makes: a byte for each button and each separator, and as many as an axis
has for each axis. -/

namespace PortCodec

/-- The length of a step's text, if that of an axis has `k` bytes. -/
def Step.textSize (k : ℕ) : Step → ℕ
  | .button .. | .leadingPipe | .pipe => 1
  | .axis _ => k
  | .finish | .finishEmpty => 0

def Step.totalSize (k : ℕ) (steps : List Step) : ℕ := steps.foldr (fun s n => s.textSize k + n) 0

theorem Step.totalSize_cons (k : ℕ) (s : Step) (steps : List Step) :
    totalSize k (s :: steps) = s.textSize k + totalSize k steps := rfl

theorem Step.totalSize_append (k : ℕ) (xs ys : List Step) :
    totalSize k (xs ++ ys) = totalSize k xs + totalSize k ys := by
  induction xs with
  | nil => exact (Nat.zero_add _).symm
  | cons s xs ih => rw [List.cons_append, totalSize_cons, ih, totalSize_cons, Nat.add_assoc]

namespace Layout

variable {p : Port}

/-- The separators of a line: one before each controller, but none before the first of a port that
fits slot 0. -/
def separatorCount (p : Port) : ℕ :=
  if p.isLegal 0 then p.controllers.length - 1 else p.controllers.length

theorem totalSize_stepOf (k : ℕ) (c : Control) (e : Entry) : Step.totalSize k (stepOf c e) =
    (if c.kind = .button then 1 else 0) + k * if c.kind.isAxis = true then 1 else 0 := by
  unfold stepOf
  cases c.kind <;> simp [Kind.isAxis, Step.totalSize, Step.textSize]

theorem totalSize_planControls (k base n i : ℕ) (placed : Placed) (cs : List Control) :
    Step.totalSize k (planControls base n i placed cs).2.1 =
      cs.countP (·.kind = .button) + k * cs.countP (·.kind.isAxis) := by
  induction cs generalizing i placed with
  | nil => rfl
  | cons c rest ih =>
    rw [planControls_steps_cons, Step.totalSize_append, totalSize_stepOf, ih, List.countP_cons,
      List.countP_cons]
    simp only [decide_eq_true_eq]
    ring

theorem totalSize_separator (k : ℕ) (system : Bool) (i : ℕ) :
    Step.totalSize k (separator system i) = if i = 0 ∧ system = true then 0 else 1 := by
  unfold separator
  split_ifs <;> simp_all [Step.totalSize, Step.textSize]

theorem totalSize_planControllers (k base stride : ℕ) (system : Bool) (i : ℕ) (placed : Placed)
    (cs : List Controller) : Step.totalSize k (planControllers base stride system i placed cs).2 =
      (cs.flatMap (·.controls)).countP (·.kind = .button) +
        k * (cs.flatMap (·.controls)).countP (·.kind.isAxis) +
        if i = 0 ∧ system = true then cs.length - 1 else cs.length := by
  induction cs generalizing i placed with
  | nil => simp [planControllers, Step.totalSize]
  | cons c rest ih =>
    -- only the first controller can be without a separator
    have hrest := ih (i + 1) (c.controls.foldl Placed.next placed)
    rw [if_neg (by omega)] at hrest
    rw [planControllers_steps_cons, Step.totalSize_append, Step.totalSize_append,
      totalSize_planControls, totalSize_separator, hrest, List.flatMap_cons, List.countP_append,
      List.countP_append, List.length_cons, Nat.mul_add]
    split_ifs <;> omega

/-- The buttons, the separators and the axes of a port make up its lines. -/
theorem totalSize_program (k : ℕ) (p : Port) :
    Step.totalSize k (plan p).program = buttonCount p + separatorCount p + k * axisCount p := by
  have hlast : Step.totalSize k [lastStep p] = 0 := by
    unfold lastStep
    split_ifs <;> rfl
  rw [plan_program, Step.totalSize_append, hlast, body, totalSize_planControllers]
  simp only [buttonCount, axisCount, controlsOf, separatorCount, Port.isSystem, true_and]
  omega

theorem maxTextSize_eq (l : Layout) : l.maxTextSize = Step.totalSize 7 l.program := by
  have h : (fun (s : Step) (n : ℕ) => s.maxText + n) = fun s n => s.textSize 7 + n := by
    funext s n
    cases s <;> rfl
  rw [maxTextSize, Step.totalSize, h]

/-- The longest line has no more than eight bytes for each entry of the index. -/
theorem maxTextSize_le (p : Port) : (plan p).maxTextSize ≤ 8 * (plan p).index.length := by
  have hstride : 0 < (plan p).stride := by
    obtain ⟨j, hj⟩ := exists_powerAtLeast (widest p)
    have hpower : (plan p).stride = 2 ^ j := hj
    rw [hpower]
    exact Nat.two_pow_pos j
  have hcontrollers : p.controllers.length ≤ (plan p).index.length := by
    rw [plan_index_length]
    exact Nat.le_mul_of_pos_right _ hstride
  have hseparators : separatorCount p ≤ p.controllers.length := by
    unfold separatorCount
    split_ifs <;> omega
  have hkinds : (slotKinds (plan p).stride p.controllers).length = (plan p).index.length := by
    rw [plan_index_length, length_slotKinds fun c hc => length_le_stride hc]
    rfl
  -- no control is both a button and an axis
  have hcounts : buttonCount p + axisCount p ≤ (plan p).index.length := by
    have hbuttons : buttonCount p = _ := plan_buttonBits p
    have haxes : axisCount p = _ := plan_axes p
    rw [hbuttons, haxes, ← hkinds, List.length_eq_countP_add_countP (· = Kind.button)]
    refine Nat.add_le_add_left (List.countP_mono_left fun k _ hk => ?_) _
    cases k <;> simp_all [Kind.isAxis]
  rw [maxTextSize_eq, totalSize_program]
  omega

end Layout

end PortCodec
