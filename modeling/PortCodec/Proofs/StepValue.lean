import PortCodec.Proofs.Placement

/-! Lines and states meet in the values of the steps. Reading a line finds a value for each step
and stores it; a state of which every step has a value is known up to its unused bits. -/

namespace PortCodec

namespace Line
open Bytes

/-- The value of a step in a state; a held button has the value one. -/
def stepValue (s : Bytes) : Step → Int16
  | .button o m _ => if testMask s o m then 1 else 0
  | .axis o => axisAt s o
  | _ => 0

/-- The value that a step finds at the head of a text, and the text behind it. -/
def parseStep (text : Bytes) : Step → Int16 × Bytes
  | .button .. =>
    match text with
    | [] => (0, [])
    | b :: rest =>
      if isFieldEnd b then (0, b :: rest) else if b = 46 ∨ b = 32 then (0, rest) else (1, rest)
  | .axis _ => readAxis text
  | .leadingPipe | .pipe => (0, skipField text)
  | .finish | .finishEmpty => (0, text)

def storeStep (s : Bytes) (v : Int16) : Step → Bytes
  | .button o m _ => if v = 0 then s else setMask s o m
  | .axis o => setAxis s o v
  | _ => s

def parseSteps (text : Bytes) : List Step → List Int16 × Bytes
  | [] => ([], text)
  | step :: steps =>
    ((parseStep text step).1 :: (parseSteps (parseStep text step).2 steps).1,
      (parseSteps (parseStep text step).2 steps).2)

def storeSteps (s : Bytes) : List Step → List Int16 → Bytes
  | step :: steps, v :: vs => storeSteps (storeStep s v step) steps vs
  | _, _ => s

theorem readStep_eq (s text : Bytes) (step : Step) :
    readStep s text step =
      (storeStep s (parseStep text step).1 step, (parseStep text step).2) := by
  cases step with
  | button o m c =>
    cases text with
    | nil => rfl
    | cons b rest =>
      unfold readStep parseStep storeStep
      dsimp only
      split_ifs <;> simp_all
  | axis o => rfl
  | leadingPipe => rfl
  | pipe => rfl
  | finish => rfl
  | finishEmpty => rfl

theorem readSteps_eq (s text : Bytes) (steps : List Step) :
    readSteps s text steps =
      (storeSteps s steps (parseSteps text steps).1, (parseSteps text steps).2) := by
  induction steps generalizing s text with
  | nil => rfl
  | cons step steps ih =>
    rw [readSteps, readStep_eq]
    exact ih _ _

theorem parseSteps_append (text : Bytes) (xs ys : List Step) :
    parseSteps text (xs ++ ys) =
      ((parseSteps text xs).1 ++ (parseSteps (parseSteps text xs).2 ys).1,
        (parseSteps (parseSteps text xs).2 ys).2) := by
  induction xs generalizing text with
  | nil => rfl
  | cons x xs ih => simp [parseSteps, ih]

theorem parseSteps_length (text : Bytes) (steps : List Step) :
    (parseSteps text steps).1.length = steps.length := by
  induction steps generalizing text with
  | nil => rfl
  | cons step steps ih => simp [parseSteps, ih]

def Fits : Step → Int16 → Prop
  | .button .., v => v = 0 ∨ v = 1
  | .axis _, _ => True
  | _, v => v = 0

theorem stepValue_fits (s : Bytes) (step : Step) : Fits step (stepValue s step) := by
  cases step with
  | button o m c =>
    unfold Fits stepValue
    dsimp only
    split_ifs <;> simp
  | axis o => trivial
  | leadingPipe => rfl
  | pipe => rfl
  | finish => rfl
  | finishEmpty => rfl

theorem parseStep_fits (text : Bytes) (step : Step) : Fits step (parseStep text step).1 := by
  cases step with
  | button o m c =>
    unfold Fits parseStep
    cases text with
    | nil => exact Or.inl rfl
    | cons b rest =>
      dsimp only
      split_ifs <;> simp
  | axis o => trivial
  | leadingPipe => rfl
  | pipe => rfl
  | finish => rfl
  | finishEmpty => rfl

theorem parseSteps_fits (text : Bytes) (steps : List Step) :
    List.Forall₂ Fits steps (parseSteps text steps).1 := by
  induction steps generalizing text with
  | nil => exact .nil
  | cons step steps ih => exact .cons (parseStep_fits text step) (ih _)

theorem map_stepValue_fits (s : Bytes) (steps : List Step) :
    List.Forall₂ Fits steps (steps.map (stepValue s)) := by
  induction steps with
  | nil => exact .nil
  | cons step steps ih => exact .cons (stepValue_fits s step) ih

@[simp] theorem storeStep_length (s : Bytes) (v : Int16) (step : Step) :
    (storeStep s v step).length = s.length := by
  cases step <;> simp only [storeStep, setAxis_length]
  split_ifs <;> simp

@[simp] theorem storeSteps_length (s : Bytes) (steps : List Step) (vs : List Int16) :
    (storeSteps s steps vs).length = s.length := by
  induction steps generalizing s vs with
  | nil => rfl
  | cons step steps ih =>
    cases vs with
    | nil => rfl
    | cons v vs => rw [storeSteps, ih, storeStep_length]

end Line
end PortCodec
