import PortCodec.Proofs.FieldReading

/-! Programs stay inside their buffers. The steps of a plan lie inside the state, no step writes
more than its longest text, the last step ends the program, and bytes behind the state make no
difference. -/

namespace PortCodec

/-- The place of a step lies inside a state of `n` bytes. -/
def Step.Inside (n : ℕ) : Step → Prop
  | .button o _ _ => o < n
  | .axis o => o + 2 ≤ n
  | _ => True

theorem Step.Inside.mono {s : Step} {m n : ℕ} (h : s.Inside m) (hle : m ≤ n) : s.Inside n := by
  cases s with
  | button o => exact Nat.lt_of_lt_of_le h hle
  | axis o => exact Nat.le_trans h hle
  | leadingPipe | pipe | finish | finishEmpty => trivial

/-- Planned steps lie inside the bits and words that were planned. -/
theorem Layout.Laid.inside {base : ℕ} {p q : Placed} {steps : List Step} (h : Laid base p steps q)
    (hb : q.bits ≤ 8 * base) : ∀ s ∈ steps, s.Inside (base + 2 * q.axes) := by
  induction h with
  | nil _ => simp
  | @button b a char steps q hc rest ih =>
    have hle : b + 1 ≤ q.bits := rest.le.1
    refine List.forall_mem_cons.2 ⟨?_, ih hb⟩
    change b / 8 < base + 2 * q.axes
    omega
  | @axis b a steps q rest ih =>
    have hle : a + 1 ≤ q.axes := rest.le.2
    refine List.forall_mem_cons.2 ⟨?_, ih hb⟩
    change base + 2 * a + 2 ≤ base + 2 * q.axes
    omega
  | @mark s p q steps hm rest ih =>
    refine List.forall_mem_cons.2 ⟨?_, ih hb⟩
    cases s with
    | button | axis => cases hm
    | _ => trivial

/-- A program of steps inside the state, and one step that ends it. -/
def Layout.Proper (l : Layout) : Prop :=
  ∃ body last, l.program = body ++ [last] ∧ last.isEnd = true ∧
  ∀ s ∈ body, s.isEnd = false ∧ s.Inside l.storageSize

namespace Layout

variable {l : Layout} {body : List Step} {last : Step}

/-- Plans are run inside their state, up to a step that ends them. -/
theorem plan_proper {p : Port} (h : p.Valid) : (plan p).Proper := by
  refine ⟨body p, lastStep p, plan_program p, lastStep_isEnd p, fun s hs => ⟨body_isEnd p s hs, ?_⟩⟩
  have hmem : s ∈ (plan p).program := by rw [plan_program]; simp [hs]
  rw [plan_storageSize]
  exact (plan_laid h).inside (show (plan p).buttonBits ≤ _ by omega) s hmem

/-- The last step writes nothing. -/
theorem serialize_of_program (h : l.program = body ++ [last]) (hlast : last.isEnd = true)
    (st : Bytes) : l.serialize st = body.flatMap (Line.stepText st) := by
  have hnone : Line.stepText st last = [] := by
    cases last with
    | finish | finishEmpty => rfl
    | _ => cases hlast
  rw [serialize, h, List.flatMap_append, List.flatMap_singleton, hnone, List.append_nil]

/-- A port without controllers has an empty line. -/
theorem serialize_plan_empty {p : Port} (h : .finishEmpty ∈ (plan p).program) (st : Bytes) :
    (plan p).serialize st = [] := by
  have hnil : p.controllers = [] := by_contra fun hne => finishEmpty_notMem hne h
  have hbody : body p = [] := by simp [body, hnil, planControllers]
  rw [serialize_of_program (plan_program p) (lastStep_isEnd p), hbody, List.flatMap_nil]

/-- The last step gives the count and leaves state and line alone. -/
theorem deserialize_of_program (h : l.program = body ++ [last]) (hlast : last.isEnd = true)
    (hbody : ∀ s ∈ body, s.isEnd = false) (st text : Bytes) :
    let r := Line.readSteps (Line.clearFirst l.storageSize st) text body
    l.deserialize st text =
      (if last = .finishEmpty then blank else text.length - r.2.length, r.1) := by
  have hsteps : ∀ st text, Line.readSteps st text [last] = (st, text) := by
    intro st text
    cases last with
    | finish | finishEmpty => rfl
    | _ => cases hlast
  have hmem : l.program.contains .finishEmpty = decide (last = .finishEmpty) := by
    have hnot : .finishEmpty ∉ body := fun hm => by simpa [Step.isEnd] using hbody _ hm
    rw [Bool.eq_iff_iff, List.contains_iff_mem, decide_eq_true_eq, h]
    simp [hnot, eq_comm]
  simp only [deserialize, hmem, decide_eq_true_eq]
  rw [h, readSteps_append, hsteps]

end Layout

namespace Line

/-- The text of an axis has at most five digits behind a blank and a sign. -/
theorem length_axisText_le (v : Int16) : (axisText v).length ≤ 7 := by
  have hmin := v.le_toInt
  have hmax := v.toInt_lt
  have hfive : (Decimal.natural v.toInt.natAbs).length ≤ 5 := Decimal.length_natural_le (by omega)
  rw [axisText, List.length_cons, Decimal.signed_eq, List.length_append]
  split_ifs <;> simp <;> omega

theorem length_stepText_le (s : Bytes) (step : Step) : (stepText s step).length ≤ step.maxText := by
  cases step with
  | axis o => exact length_axisText_le _
  | button | leadingPipe | pipe | finish | finishEmpty => exact le_rfl

variable {s t : Bytes}

theorem byteAt_append {o : ℕ} (h : o < s.length) : Bytes.byteAt (s ++ t) o = s.byteAt o := by
  simp [Bytes.byteAt, List.getElem?_append_left h]

theorem clearMask_append {o : ℕ} (m : UInt8) (h : o < s.length) :
    clearMask (s ++ t) o m = clearMask s o m ++ t := by
  unfold clearMask
  rw [List.modify_eq_set, List.modify_eq_set, List.set_append_left _ _ h,
    List.getElem?_append_left h]

theorem testMask_append {o : ℕ} (m : UInt8) (h : o < s.length) :
    testMask (s ++ t) o m = testMask s o m := by
  rw [testMask, byteAt_append h, testMask]

theorem axisAt_append {o : ℕ} (h : o + 1 < s.length) : axisAt (s ++ t) o = axisAt s o :=
  axisAt_congr _ (byteAt_append (by omega)) (byteAt_append h)

/-- A step looks at no byte behind its place. -/
theorem stepText_append {step : Step} (h : step.Inside s.length) :
    stepText (s ++ t) step = stepText s step := by
  cases step with
  | button o m c => rw [stepText, testMask_append m h, stepText]
  | axis o => rw [stepText, axisAt_append (by exact h), stepText]
  | leadingPipe | pipe | finish | finishEmpty => rfl

/-- A step changes no byte behind its place. -/
theorem readStep_append {step : Step} (text : Bytes) (h : step.Inside s.length) :
    readStep (s ++ t) text step =
      ((readStep s text step).1 ++ t, (readStep s text step).2) := by
  cases step with
  | button o m c =>
    cases text with
    | nil => rfl
    | cons b rest =>
      simp only [readStep]
      split_ifs
      · rfl
      · rfl
      · rw [setMask_append m h]
  | axis o => simp only [readStep, setAxis_append _ (show o + 1 < s.length from h)]
  | leadingPipe | pipe | finish | finishEmpty => rfl

theorem length_clearFirst (k : ℕ) (st : Bytes) : (clearFirst k st).length = st.length := by
  simp [clearFirst]
  omega

theorem length_readStep (s text : Bytes) (step : Step) :
    (readStep s text step).1.length = s.length := by
  rw [readStep_eq, storeStep_length]

theorem readSteps_append_state {steps : List Step} {text : Bytes}
    (h : ∀ step ∈ steps, step.Inside s.length) :
    readSteps (s ++ t) text steps =
      ((readSteps s text steps).1 ++ t, (readSteps s text steps).2) := by
  induction steps generalizing s text with
  | nil => rfl
  | cons step steps ih =>
    obtain ⟨hstep, hsteps⟩ := List.forall_mem_cons.1 h
    rw [readSteps, readStep_append text hstep]
    exact ih (by simpa only [length_readStep] using hsteps)

end Line
theorem Layout.length_deserialize (l : Layout) (st line : Bytes) :
    (l.deserialize st line).2.length = st.length := by
  rw [deserialize, Line.readSteps_eq]
  dsimp only
  rw [Line.storeSteps_length, Line.length_clearFirst]

end PortCodec
