import PortCodec.Proofs.RoundTrip

/-! Different canonical states have different lines, also where a line is not read back right.
From its end a line can be taken apart in one way only: a button or a separator is the last byte,
and the text of an axis reaches back to the last blank. -/

namespace PortCodec

namespace Line
open Decimal Layout

variable {s t : Bytes} {steps : List Step}

theorem axisText_inj {v w : Int16} (h : axisText v = axisText w) : v = w := by
  have hv := readAxis_axisText v (show ([] : Bytes).takeWhile isDigitByte = [] from rfl)
  rw [h, readAxis_axisText w rfl] at hv
  exact (congrArg Prod.fst hv).symm

theorem takeWhile_ne_blank {ds : Bytes} (h : (32 : UInt8) ∉ ds) (rest : Bytes) :
    (ds ++ 32 :: rest).takeWhile (· ≠ 32) = ds := by
  rw [List.takeWhile_append_of_pos, List.takeWhile_cons_of_neg (by simp), List.append_nil]
  intro b hb
  have hne : b ≠ 32 := fun he => h (he ▸ hb)
  simpa using hne

/-- The last blank of a line is the start of its last axis text. -/
theorem append_axisText_inj {xs ys : Bytes} {v w : Int16}
    (h : xs ++ axisText v = ys ++ axisText w) : xs = ys ∧ v = w := by
  have hv : (32 : UInt8) ∉ (signed v.toInt).reverse := by
    rw [List.mem_reverse]; exact space_notMem_signed _
  have hw : (32 : UInt8) ∉ (signed w.toInt).reverse := by
    rw [List.mem_reverse]; exact space_notMem_signed _
  have hr : (signed v.toInt).reverse ++ 32 :: xs.reverse =
      (signed w.toInt).reverse ++ 32 :: ys.reverse := by
    simpa [axisText] using congrArg List.reverse h
  have hd := congrArg (List.takeWhile (· ≠ 32)) hr
  rw [takeWhile_ne_blank hv, takeWhile_ne_blank hw, List.reverse_inj] at hd
  have ht : axisText v = axisText w := by rw [axisText, axisText, hd]
  rw [ht] at h
  exact ⟨List.append_cancel_right h, axisText_inj ht⟩

/-- The text of the last step of a line tells the value of that step. -/
theorem append_stepText_inj {x : Step} (hx : Spelled [x]) {xs ys : Bytes}
    (h : xs ++ stepText s x = ys ++ stepText t x) : xs = ys ∧ stepValue s x = stepValue t x := by
  cases x with
  | button o m c =>
    obtain ⟨b, hb, -, -, hv⟩ := button_byte s o m (hx o m c (by simp))
    obtain ⟨d, hd, -, -, hw⟩ := button_byte t o m (hx o m c (by simp))
    rw [hb, hd] at h
    obtain ⟨hxy, hbd⟩ := List.append_inj' h rfl
    rw [hv, hw, (List.cons.inj hbd).1]
    exact ⟨hxy, rfl⟩
  | axis o => exact append_axisText_inj h
  | leadingPipe => exact ⟨List.append_cancel_right h, rfl⟩
  | pipe => exact ⟨List.append_cancel_right h, rfl⟩
  | finish => exact ⟨List.append_cancel_right h, rfl⟩
  | finishEmpty => exact ⟨List.append_cancel_right h, rfl⟩

theorem map_stepValue_of_text (hs : Spelled steps)
    (h : steps.flatMap (stepText s) = steps.flatMap (stepText t)) :
    steps.map (stepValue s) = steps.map (stepValue t) := by
  induction steps using List.reverseRecOn with
  | nil => rfl
  | append_singleton steps x ih =>
    -- peel off the last step; the text in front of it is that of the others
    have hinit : Spelled steps := fun o m c hm => hs o m c (List.mem_append_left _ hm)
    have hlast : Spelled [x] := fun o m c hm => hs o m c (List.mem_append_right _ hm)
    rw [List.flatMap_append, List.flatMap_append, List.flatMap_singleton,
      List.flatMap_singleton] at h
    obtain ⟨htext, hv⟩ := append_stepText_inj hlast h
    rw [List.map_append, List.map_append, ih hinit htext, List.map_singleton,
      List.map_singleton, hv]

end Line

namespace Layout
open Bytes

/-- Two canonical states with the same line are the same state. -/
theorem serialize_injective {p : Port} {s t : Bytes} (hv : p.validate = .ok ())
    (hs : (plan p).Canonical s) (ht : (plan p).Canonical t)
    (h : (plan p).serialize s = (plan p).serialize t) : s = t := by
  have hvalid := (Port.validate_ok_iff p).1 hv
  apply canonical_ext hvalid hs ht
  exact Line.map_stepValue_of_text (Line.spelled_of_laid (plan_laid hvalid)) h

/-- Clearing the unused bits of `[255, 1, 0]` gives the one canonical state of the line `" 17A"`. -/
theorem digitPort_line_unique : (plan digitPort).Canonical [3, 1, 0] ∧
    (plan digitPort).serialize [3, 1, 0] =
      (plan digitPort).serialize ((plan digitPort).canonicalize [255, 1, 0]) ∧
    [3, 1, 0] = (plan digitPort).canonicalize [255, 1, 0] := by
  have hline : (plan digitPort).serialize [3, 1, 0] =
      (plan digitPort).serialize ((plan digitPort).canonicalize [255, 1, 0]) := by decide +kernel
  have hc : (plan digitPort).Canonical [3, 1, 0] := by
    refine ⟨by decide, fun i h1 h2 => ?_⟩
    have hb : (plan digitPort).buttonBits = 2 := by decide
    rw [hb] at h1 h2
    interval_cases i <;> decide
  exact ⟨hc, hline, serialize_injective rfl hc (canonical_canonicalize (by decide)) hline⟩

end Layout
end PortCodec
