import PortCodec.Layout.Plan
import PortCodec.Port.Validation
import PortCodec.Proofs.Cell
import PortCodec.Proofs.Outcome

/-! Where planning puts the controls. The steps of a program take the bits and the words behind
them one after the other, without gaps, and the index holds the same places. -/

namespace PortCodec

theorem Control.validate_ok_iff (c : Control) (path : String) :
    c.validate path = .ok () ↔ c.fault? = none := by
  unfold Control.validate
  cases c.fault? <;> simp

namespace Port

theorem validateControls_ok_iff (k i : ℕ) (cs : List Control) :
    validateControls k i cs = .ok () ↔ ∀ c ∈ cs, c.fault? = none := by
  induction cs generalizing i with
  | nil => simp [validateControls]
  | cons c rest ih =>
    rw [validateControls, bind_eq_ok, Unique.exists_iff, Control.validate_ok_iff, ih,
      List.forall_mem_cons]

theorem validateControllers_ok_iff (i : ℕ) (cs : List Controller) :
    validateControllers i cs = .ok () ↔ ∀ c ∈ cs, ∀ b ∈ c.controls, b.fault? = none := by
  induction cs generalizing i with
  | nil => simp [validateControllers]
  | cons c rest ih =>
    rw [validateControllers, bind_eq_ok, Unique.exists_iff, validateControls_ok_iff, ih,
      List.forall_mem_cons]

theorem validate_ok_iff (p : Port) : p.validate = .ok () ↔ p.Valid := by
  unfold validate Valid
  split_ifs with h
  · simp [h]
  · simp [h, validateControllers_ok_iff]

end Port

theorem Control.movie_of_fault?_eq_none {c : Control} (h : c.fault? = none)
    (hb : c.kind = .button) :
    isMovieByte c.movie = true := by
  unfold Control.fault? at h
  rw [hb] at h
  by_contra hm
  simp [hm] at h

/-- A step that takes no room in the state. -/
def Step.isMark : Step → Bool
  | .button .. | .axis _ => false
  | _ => true

def Step.isEnd : Step → Bool
  | .finish | .finishEmpty => true
  | _ => false

namespace Layout
open Bytes

/-- The steps take the places from `p` up to `q` in order; words lie from byte `base` on. -/
inductive Laid (base : ℕ) : Placed → List Step → Placed → Prop
  | nil (p : Placed) : Laid base p [] p
  | button {b a : ℕ} {char : UInt8} {steps : List Step} {q : Placed} (hc : isMovieByte char = true)
      (rest : Laid base ⟨b + 1, a⟩ steps q) :
      Laid base ⟨b, a⟩ (.button (b / 8) (bitMask b) char :: steps) q
  | axis {b a : ℕ} {steps : List Step} {q : Placed} (rest : Laid base ⟨b, a + 1⟩ steps q) :
      Laid base ⟨b, a⟩ (.axis (base + 2 * a) :: steps) q
  | mark {m : Step} {p q : Placed} {steps : List Step} (hm : m.isMark = true)
      (rest : Laid base p steps q) : Laid base p (m :: steps) q

theorem Laid.append {base : ℕ} {p q r : Placed} {xs ys : List Step} (hx : Laid base p xs q)
    (hy : Laid base q ys r) : Laid base p (xs ++ ys) r := by
  induction hx with
  | nil _ => exact hy
  | button hc _ ih => exact .button hc (ih hy)
  | axis _ ih => exact .axis (ih hy)
  | mark hm _ ih => exact .mark hm (ih hy)

theorem Laid.le {base : ℕ} {p q : Placed} {steps : List Step} (h : Laid base p steps q) :
    p.bits ≤ q.bits ∧ p.axes ≤ q.axes := by
  induction h with
  | nil p => exact ⟨le_rfl, le_rfl⟩
  | button _ _ ih => exact ⟨by have := ih.1; simp at this; simp; omega, ih.2⟩
  | axis _ ih => exact ⟨ih.1, by have := ih.2; simp at this; simp; omega⟩
  | mark _ _ ih => exact ih

/-- A planned button has a bit of its own and a byte that may stand for it. -/
theorem Laid.button_mem {base : ℕ} {p q : Placed} {steps : List Step} (h : Laid base p steps q)
    {o : ℕ} {m c : UInt8} (hm : .button o m c ∈ steps) :
    isMovieByte c = true ∧ ∃ i, i < q.bits ∧ o = i / 8 ∧ m = bitMask i := by
  induction h with
  | nil _ => simp at hm
  | @button b a char steps q hc rest ih =>
    rcases List.mem_cons.1 hm with h | h
    · injection h with h1 h2 h3
      exact ⟨h3 ▸ hc, b, rest.le.1, h1, h2⟩
    · exact ih h
  | axis _ ih =>
    rcases List.mem_cons.1 hm with h | h
    · simp at h
    · exact ih h
  | mark hmark _ ih =>
    rcases List.mem_cons.1 hm with rfl | h
    · simp [Step.isMark] at hmark
    · exact ih h

theorem foldl_next (p : Placed) (cs : List Control) :
    cs.foldl Placed.next p =
      ⟨p.bits + cs.countP (·.kind = .button), p.axes + cs.countP (·.kind.isAxis)⟩ := by
  induction cs generalizing p with
  | nil => rfl
  | cons c rest ih =>
    rw [List.foldl_cons, ih, List.countP_cons, List.countP_cons, Placed.next]
    by_cases hb : c.kind = .button
    · simp [hb, Kind.isAxis]; omega
    · by_cases ha : c.kind.isAxis = true
      · simp [hb, ha]; omega
      · simp [hb, ha]

/-- The entry of control `i` of controller `k` when `placed` controls come before it. -/
def entryAt (base k i : ℕ) (placed : Placed) (c : Control) : Entry :=
  { place base placed c with controller := k, control := i }

theorem stepOf_laid (base k i : ℕ) (placed : Placed) {c : Control}
    (hc : c.kind = .button → isMovieByte c.movie = true) :
    Laid base placed (stepOf c (entryAt base k i placed c)) (placed.next c) := by
  obtain ⟨b, a⟩ := placed
  unfold stepOf entryAt place Placed.next
  by_cases hb : c.kind = .button
  · simp only [hb, if_true]
    exact .button (hc hb) (.nil _)
  · by_cases ha : c.kind.isAxis = true
    · simp only [hb, ha, if_true, if_false]
      exact .axis (.nil _)
    · simp only [hb, ha, if_false]
      exact .nil _

theorem planControls_placed (base k i : ℕ) (placed : Placed) (cs : List Control) :
    (planControls base k i placed cs).2.2 = cs.foldl Placed.next placed := by
  induction cs generalizing i placed with
  | nil => rfl
  | cons c rest ih => exact ih (i + 1) (placed.next c)

theorem planControls_steps_cons (base k i : ℕ) (placed : Placed) (c : Control)
    (rest : List Control) :
    (planControls base k i placed (c :: rest)).2.1 =
      stepOf c (entryAt base k i placed c) ++
        (planControls base k (i + 1) (placed.next c) rest).2.1 := rfl

theorem planControls_laid (base k i : ℕ) (placed : Placed) {cs : List Control}
    (hc : ∀ c ∈ cs, c.kind = .button → isMovieByte c.movie = true) :
    Laid base placed (planControls base k i placed cs).2.1 (cs.foldl Placed.next placed) := by
  induction cs generalizing i placed with
  | nil => exact .nil _
  | cons c rest ih =>
    rw [planControls_steps_cons, List.foldl_cons]
    exact (stepOf_laid base k i placed (hc c (by simp))).append
      (ih (i + 1) (placed.next c) (fun x hx => hc x (by simp [hx])))

theorem separator_laid (base : ℕ) (p : Placed) (system : Bool) (k : ℕ) :
    Laid base p (separator system k) p := by
  unfold separator
  split_ifs
  · exact .nil _
  · exact .mark rfl (.nil _)
  · exact .mark rfl (.nil _)

theorem planControllers_steps_cons (base stride : ℕ) (system : Bool) (k : ℕ) (placed : Placed)
    (c : Controller) (rest : List Controller) :
    (planControllers base stride system k placed (c :: rest)).2 =
      separator system k ++ (planControls base k 0 placed c.controls).2.1 ++
        (planControllers base stride system (k + 1)
          (c.controls.foldl Placed.next placed) rest).2 := by
  rw [← planControls_placed base k 0]
  rfl

theorem planControllers_laid (base stride : ℕ) (system : Bool) (k : ℕ) (placed : Placed)
    {cs : List Controller}
    (hc : ∀ c ∈ cs, ∀ b ∈ c.controls, b.kind = .button → isMovieByte b.movie = true) :
    Laid base placed (planControllers base stride system k placed cs).2
      ((cs.flatMap (·.controls)).foldl Placed.next placed) := by
  induction cs generalizing k placed with
  | nil => exact .nil _
  | cons c rest ih =>
    rw [planControllers_steps_cons, List.flatMap_cons, List.foldl_append]
    have hs := separator_laid base placed system k
    have hh := planControls_laid base k 0 placed (hc c (by simp))
    exact (hs.append hh).append (ih (k + 1) _ (fun x hx => hc x (by simp [hx])))

def body (p : Port) : List Step :=
  (planControllers ((buttonCount p + 7) / 8) (powerAtLeast (widest p)) p.isSystem 0 {}
    p.controllers).2

def lastStep (p : Port) : Step := if p.controllers.isEmpty then .finishEmpty else .finish

theorem plan_program (p : Port) : (plan p).program = body p ++ [lastStep p] := rfl

theorem lastStep_isEnd (p : Port) : (lastStep p).isEnd = true := by
  unfold lastStep
  split_ifs <;> rfl

theorem isMark_of_isEnd {x : Step} (h : x.isEnd = true) : x.isMark = true := by
  cases x <;> simp_all [Step.isEnd, Step.isMark]

theorem planControls_isEnd (base k i : ℕ) (placed : Placed) (cs : List Control) :
    ∀ x ∈ (planControls base k i placed cs).2.1, x.isEnd = false := by
  induction cs generalizing i placed with
  | nil => simp [planControls]
  | cons c rest ih =>
    rw [planControls_steps_cons]
    intro x hx
    rcases List.mem_append.1 hx with hx | hx
    · unfold stepOf at hx
      split_ifs at hx <;> simp at hx <;> subst hx <;> rfl
    · exact ih _ _ x hx

theorem body_isEnd (p : Port) : ∀ x ∈ body p, x.isEnd = false := by
  unfold body
  generalize (0 : ℕ) = k, ({} : Placed) = placed
  induction p.controllers generalizing k placed with
  | nil => simp [planControllers]
  | cons c rest ih =>
    rw [planControllers_steps_cons]
    intro x hx
    rcases List.mem_append.1 hx with hx | hx
    · rcases List.mem_append.1 hx with hx | hx
      · unfold separator at hx
        split_ifs at hx <;> simp at hx <;> subst hx <;> rfl
      · exact planControls_isEnd _ _ _ _ _ x hx
    · exact ih _ _ x hx

theorem finishEmpty_notMem {p : Port} (hc : p.controllers ≠ []) :
    Step.finishEmpty ∉ (plan p).program := by
  have hlast : lastStep p = .finish := by simp [lastStep, hc]
  rw [plan_program, hlast]
  intro hx
  rcases List.mem_append.1 hx with hx | hx
  · simpa [Step.isEnd] using body_isEnd p _ hx
  · simp at hx

theorem movie_of_valid {p : Port} (h : p.Valid) :
    ∀ c ∈ p.controllers, ∀ b ∈ c.controls, b.kind = .button → isMovieByte b.movie = true :=
  fun c hc b hb => Control.movie_of_fault?_eq_none (h.2 c hc b hb)

theorem foldl_next_controlsOf (p : Port) :
    (p.controllers.flatMap (·.controls)).foldl Placed.next {} = ⟨buttonCount p, axisCount p⟩ := by
  rw [foldl_next]
  simp [buttonCount, axisCount, controlsOf]

theorem body_laid {p : Port} (h : p.Valid) :
    Laid ((buttonCount p + 7) / 8) {} (body p) ⟨buttonCount p, axisCount p⟩ := by
  rw [← foldl_next_controlsOf]
  exact planControllers_laid _ _ _ 0 {} (movie_of_valid h)

/-- The places of a plan are taken from the first bit to the last word. -/
theorem plan_laid {p : Port} (h : p.Valid) :
    Laid (((plan p).buttonBits + 7) / 8) {} (plan p).program
      ⟨(plan p).buttonBits, (plan p).axes⟩ := by
  rw [plan_program]
  exact (body_laid h).append (.mark (isMark_of_isEnd (lastStep_isEnd p)) (.nil _))

theorem le_powerAtLeast (n : ℕ) : n ≤ powerAtLeast n := by
  unfold powerAtLeast
  split_ifs with h
  · exact h
  · have := Nat.lt_log2_self (n := n - 1)
    rw [Nat.pow_eq]
    omega

theorem le_foldl_max (ns : List ℕ) (m : ℕ) : m ≤ ns.foldl max m ∧ ∀ n ∈ ns, n ≤ ns.foldl max m := by
  induction ns generalizing m with
  | nil => simp
  | cons a rest ih =>
    obtain ⟨h1, h2⟩ := ih (max m a)
    simp only [List.foldl_cons, List.mem_cons]
    refine ⟨by omega, ?_⟩
    rintro n (rfl | hn)
    · omega
    · exact h2 n hn

theorem length_le_stride {p : Port} {c : Controller} (hc : c ∈ p.controllers) :
    c.controls.length ≤ (plan p).stride := by
  have hw : c.controls.length ≤ widest p :=
    (le_foldl_max _ 0).2 _ (List.mem_map.2 ⟨c, hc, rfl⟩)
  exact hw.trans (le_powerAtLeast _)

theorem planControls_entries_length (base k i : ℕ) (placed : Placed) (cs : List Control) :
    (planControls base k i placed cs).1.length = cs.length := by
  induction cs generalizing i placed with
  | nil => rfl
  | cons c rest ih => simpa [planControls] using ih (i + 1) (placed.next c)

theorem planControls_entry (base k i : ℕ) (placed : Placed)
    (pre post : List Control) (c : Control) :
    (planControls base k i placed (pre ++ c :: post)).1[pre.length]? =
      some (entryAt base k (i + pre.length) (pre.foldl Placed.next placed) c) := by
  induction pre generalizing i placed with
  | nil => rfl
  | cons x rest ih =>
    have := ih (i + 1) (placed.next x)
    rw [show i + 1 + rest.length = i + (x :: rest).length by simp; omega] at this
    simpa [planControls] using this

theorem planControllers_index_cons (base stride : ℕ) (system : Bool) (k : ℕ) (placed : Placed)
    (c : Controller) (rest : List Controller) :
    (planControllers base stride system k placed (c :: rest)).1 =
      (planControls base k 0 placed c.controls).1 ++ (padding k c.controls.length stride ++
        (planControllers base stride system (k + 1)
          (c.controls.foldl Placed.next placed) rest).1) := by
  rw [← planControls_placed base k 0, ← List.append_assoc]
  rfl

theorem planControllers_entry (base stride : ℕ) (system : Bool) (k : ℕ) (placed : Placed)
    (pre post : List Controller) (c : Controller) (cpre cpost : List Control) (x : Control)
    (hx : c.controls = cpre ++ x :: cpost)
    (hw : ∀ d ∈ pre ++ c :: post, d.controls.length ≤ stride) :
    (planControllers base stride system k placed (pre ++ c :: post)).1[
        pre.length * stride + cpre.length]? =
      some (entryAt base (k + pre.length) cpre.length
        ((pre.flatMap (·.controls) ++ cpre).foldl Placed.next placed) x) := by
  induction pre generalizing k placed with
  | nil =>
    have hlt : cpre.length < (planControls base k 0 placed c.controls).1.length := by
      rw [planControls_entries_length, hx]; simp
    have he := planControls_entry base k 0 placed cpre cpost x
    rw [← hx] at he
    rw [List.nil_append, planControllers_index_cons]
    simpa [List.getElem?_append_left hlt] using he
  | cons d rest ih =>
    -- the first controller fills one whole stride of the index
    have hd := hw d (by simp)
    have hlen : ((planControls base k 0 placed d.controls).1 ++
        padding k d.controls.length stride).length = stride := by
      simp [planControls_entries_length, padding]; omega
    have := ih (k + 1) (d.controls.foldl Placed.next placed)
        (fun e he => hw e (by simp at he ⊢; tauto))
    rw [List.cons_append, planControllers_index_cons, ← List.append_assoc,
      List.getElem?_append_right (by rw [hlen, List.length_cons, Nat.add_mul]; omega), hlen,
      List.length_cons, show (rest.length + 1) * stride + cpre.length - stride =
        rest.length * stride + cpre.length by rw [Nat.add_mul]; omega, this,
      show k + 1 + rest.length = k + (rest.length + 1) by omega]
    simp

theorem plan_index (p : Port) :
    (plan p).index =
      (planControllers (((plan p).buttonBits + 7) / 8) (plan p).stride p.isSystem 0 {}
      p.controllers).1 := rfl

/-- The index entry of a control, from the controls declared before it. -/
theorem lookup?_plan {p : Port} {pre post : List Controller} {c : Controller}
    {cpre cpost : List Control} {x : Control} (hp : p.controllers = pre ++ c :: post)
    (hx : c.controls = cpre ++ x :: cpost) :
    (plan p).lookup? pre.length cpre.length =
      some (entryAt (((plan p).buttonBits + 7) / 8) pre.length cpre.length
        ((pre.flatMap (·.controls) ++ cpre).foldl Placed.next {}) x) := by
  have hw : ∀ d ∈ pre ++ c :: post, d.controls.length ≤ (plan p).stride := by
    rw [← hp]
    exact fun d hd => length_le_stride hd
  have hc := hw c (by simp)
  have hn : (plan p).controllers = (pre ++ c :: post).length := by rw [← hp]; rfl
  have he := planControllers_entry (((plan p).buttonBits + 7) / 8)
      (plan p).stride p.isSystem 0 {} pre
    post c cpre cpost x hx hw
  rw [← hp, Nat.zero_add] at he
  rw [hx] at hc
  unfold lookup?
  rw [if_pos, plan_index]
  · simpa using he
  · rw [hn]
    simp at hc ⊢
    omega

end Layout
end PortCodec
