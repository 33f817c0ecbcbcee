import PortCodec.Proofs.LoadedCalls

/-! How long lines are. A line has a byte for each button and each separator, and between two and
seven for each axis. The most that a layout reports is what its longest line takes, and writing a
line touches nothing behind it. -/

namespace PortCodec

namespace Line

variable {st : Bytes} {steps : List Step}

theorem two_le_length_axisText (v : Int16) : 2 ≤ (axisText v).length := by
  have hne : Decimal.signed v.toInt ≠ [] := by
    rw [Decimal.signed_eq]
    exact List.append_ne_nil_of_right_ne_nil _ (Decimal.natural_ne_nil _)
  have := List.length_pos_iff.2 hne
  rw [axisText, List.length_cons]
  omega

theorem totalSize_le_length (st : Bytes) (steps : List Step) :
    Step.totalSize 2 steps ≤ (steps.flatMap (stepText st)).length := by
  induction steps with
  | nil => exact le_rfl
  | cons s steps ih =>
    have hs : s.textSize 2 ≤ (stepText st s).length := by
      cases s with
      | axis o => exact two_le_length_axisText _
      | button | leadingPipe | pipe | finish | finishEmpty => exact le_rfl
    rw [Step.totalSize_cons, List.flatMap_cons, List.length_append]
    omega

/-- Where every byte is 128, every axis is far below zero. -/
theorem axisAt_replicate {n o : ℕ} (h : o + 2 ≤ n) : axisAt (List.replicate n 128) o = -32640 := by
  have hbyte (i : ℕ) (hi : i < n) : Bytes.byteAt (List.replicate n 128) i = 128 := by
    simp [Bytes.byteAt, hi]
  rw [axisAt, Bytes.word, hbyte o (by omega), hbyte (o + 1) (by omega)]
  rfl

theorem length_eq_totalSize {n : ℕ} (h : ∀ s ∈ steps, s.Inside n) :
    (steps.flatMap (stepText (List.replicate n 128))).length = Step.totalSize 7 steps := by
  induction steps with
  | nil => rfl
  | cons s steps ih =>
    obtain ⟨hs, hsteps⟩ := List.forall_mem_cons.1 h
    have hone : (stepText (List.replicate n 128) s).length = s.textSize 7 := by
      cases s with
      | axis o =>
        have hlong : (axisText (-32640)).length = 7 := by decide +kernel
        rw [stepText, axisAt_replicate hs, hlong, Step.textSize]
      | button | leadingPipe | pipe | finish | finishEmpty => rfl
    rw [Step.totalSize_cons, List.flatMap_cons, List.length_append, hone, ih hsteps]

end Line

namespace Layout

variable {p : Port}

/-- A line has at least a byte for each button and separator, and two for each axis. -/
theorem le_length_serialize (p : Port) (st : Bytes) :
    buttonCount p + separatorCount p + 2 * axisCount p ≤ ((plan p).serialize st).length := by
  rw [← totalSize_program]
  exact Line.totalSize_le_length st _

theorem exists_longest (hv : p.Valid) : ∃ st, st.length = (plan p).storageSize ∧
    ((plan p).serialize st).length = (plan p).maxTextSize := by
  refine ⟨List.replicate (plan p).storageSize 128, List.length_replicate, ?_⟩
  rw [maxTextSize_eq]
  apply Line.length_eq_totalSize
  rw [plan_storageSize]
  exact (plan_laid hv).inside (show (plan p).buttonBits ≤ _ by omega)

end Layout

namespace Codec

open Layout

structure LineLengths (p : Port) (c : Codec) : Prop where
  maxTextSize_eq : c.layout.maxTextSize = buttonCount p + separatorCount p + 7 * axisCount p
  bounds : ∀ st, c.layout.storageSize ≤ st.length →
    buttonCount p + separatorCount p + 2 * axisCount p ≤ (c.layout.serialize st).length ∧
      (c.layout.serialize st).length ≤ c.layout.maxTextSize
  /-- The steps of the layout write the line to the front of a buffer, and so does the codec. -/
  serializeIn : ∀ st out, c.layout.storageSize ≤ st.length → c.layout.maxTextSize ≤ out.length →
    (c.layout.serializeIn 0).on ⟨st, out⟩ = (.ok (c.layout.serialize st).length,
      ⟨st, c.layout.serialize st ++ out.drop (c.layout.serialize st).length⟩)
  serialize : ∀ st out, c.layout.storageSize ≤ st.length → c.layout.maxTextSize ≤ out.length →
    c.serialize st out = .ok ((c.layout.serialize st).length,
      c.layout.serialize st ++ out.drop (c.layout.serialize st).length)
  longest : ∃ st, st.length = c.layout.storageSize ∧ ∀ out, c.layout.maxTextSize ≤ out.length →
    ∃ out', c.serialize st out = .ok (c.layout.maxTextSize, out')
  appendText : ∀ st text, c.layout.storageSize ≤ st.length →
    c.appendText text st = .ok (text ++ c.layout.serialize st)

/-- Codecs of valid ports report the length of their longest line. -/
theorem lineLengths {p : Port} {c : Codec} (hv : p.validate = .ok ()) (hc : c.Serves p) :
    LineLengths p c := by
  have hvalid := (Port.validate_ok_iff p).1 hv
  have hl := hc.layout
  have he := hc.computes hvalid
  constructor
  case maxTextSize_eq => rw [hl, Layout.maxTextSize_eq, totalSize_program]
  case bounds =>
    intro st _
    exact ⟨hl ▸ le_length_serialize p st, length_serialize_le _ st⟩
  case serializeIn =>
    intro st out hs hroom
    have hempty : .finishEmpty ∈ c.layout.program → c.layout.serialize st = [] := by
      rw [hl]
      exact fun h => serialize_plan_empty h st
    exact @Layout.serializeIn_on _ st [] out (hl ▸ plan_proper hvalid) hempty hs hroom
  case serialize => exact fun st out hs hroom => serialize_eq he hs hroom
  case longest =>
    obtain ⟨st, hsize, hlong⟩ := exists_longest hvalid
    rw [← hl] at hsize hlong
    exact ⟨st, hsize, fun out hroom => ⟨_, hlong ▸ serialize_eq he hsize.ge hroom⟩⟩
  case appendText => exact fun st text hs => appendText_eq he hs text

/-- The longest line of two pads, with dots for the buttons, in a buffer of two bytes more: compiled
code writes it too. -/
theorem twoPads_lineLengths :
    twoPads.validate = .ok () ∧ ∃ m : Program.Loaded, m.CodeOf twoPads ∧
      ∀ native ∈ [none, some m],
        let c : Codec := { port := twoPads, layout := plan twoPads, backend := .auto, native }
        LineLengths twoPads c ∧ c.layout.maxTextSize = 12 ∧
          c.serialize [0, 0, 128] (List.replicate 14 255) =
            .ok (12, [124, 46, 46, 124, 32, 45, 51, 50, 55, 54, 56, 46, 255, 255]) ∧
          c.appendText [9] [0, 0, 128] =
            .ok [9, 124, 46, 46, 124, 32, 45, 51, 50, 55, 54, 56, 46] := by
  have hv : twoPads.validate = .ok () := rfl
  obtain ⟨m, hm⟩ := Program.Loaded.exists_codeOf (p := twoPads)
    ((Program.Loaded.codeSize_host _).trans_lt (by decide +kernel))
  refine ⟨hv, m, hm, fun native hnative => ?_⟩
  intro c
  have hserves : c.Serves twoPads := by
    refine ⟨rfl, fun m' hm' => ?_⟩
    obtain rfl : native = some m' := hm'
    obtain rfl : m' = m := by simpa using hnative
    exact hm
  have hlengths : LineLengths twoPads c := lineLengths hv hserves
  have hs : c.layout.storageSize ≤ [0, 0, (128 : UInt8)].length :=
    show (plan twoPads).storageSize ≤ 3 by decide
  have hroom : c.layout.maxTextSize ≤ (List.replicate 14 (255 : UInt8)).length :=
    show (plan twoPads).maxTextSize ≤ 14 by decide
  have hline : c.layout.serialize [0, 0, 128] =
      [124, 46, 46, 124, 32, 45, 51, 50, 55, 54, 56, 46] := by
    change (plan twoPads).serialize _ = _
    decide +kernel
  refine ⟨hlengths, show (plan twoPads).maxTextSize = 12 by decide, ?_, ?_⟩
  · rw [hlengths.serialize _ _ hs hroom, hline]
    rfl
  · rw [hlengths.appendText _ _ hs, hline]
    rfl

end Codec
end PortCodec
