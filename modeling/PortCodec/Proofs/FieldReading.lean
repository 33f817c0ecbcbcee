import PortCodec.Proofs.Fields

/-! Reading controllers from their own fields. No control reads across the end of its field, and
a value is put where the index has its control, so the program of a layout reads a line exactly
as its controllers do one by one. -/

namespace PortCodec

namespace Line
open Bytes Decimal Layout

variable {f u s : Bytes}

/-- Spans that no end of a field belongs to stay inside the field. -/
theorem span_append {q : UInt8 → Bool} (hq : ∀ b, isFieldEnd b = true → q b = false) (f : Bytes)
    (hu : Ended u) :
    (f ++ u).takeWhile q = f.takeWhile q ∧ (f ++ u).dropWhile q = f.dropWhile q ++ u := by
  induction f with
  | nil =>
    cases u with
    | nil => exact ⟨rfl, rfl⟩
    | cons b u =>
      have hb := hq b (hu b rfl)
      simp [hb]
  | cons b f ih =>
    cases hb : q b
    · simp [hb]
    · simp [hb, ih.1, ih.2]

theorem isBlank_fieldEnd (b : UInt8) (h : isFieldEnd b = true) : isBlank b = false := by
  have hne : ∀ c, isFieldEnd c = false → b ≠ c := by
    rintro c hc rfl
    simp [h] at hc
  simp [isBlank, hne 32 rfl, hne 9 rfl]

theorem isDigitByte_fieldEnd (b : UInt8) (h : isFieldEnd b = true) : isDigitByte b = false := by
  simp only [isFieldEnd, Bool.or_eq_true, decide_eq_true_eq] at h
  rcases h with ((rfl | rfl) | rfl) | rfl <;> rfl

theorem takeSign_append_ended (f : Bytes) (hu : Ended u) :
    takeSign (f ++ u) = ((takeSign f).1, (takeSign f).2 ++ u) := by
  cases f with
  | nil =>
    cases u with
    | nil => rfl
    | cons b u =>
      have hb := hu b rfl
      exact takeSign_cons (by rintro rfl; simp [isFieldEnd] at hb)
        (by rintro rfl; simp [isFieldEnd] at hb) u
  | cons b f =>
    by_cases hm : b = 45
    · subst hm; rfl
    · by_cases hp : b = 43
      · subst hp; rfl
      · rw [List.cons_append, takeSign_cons hm hp, takeSign_cons hm hp]
        rfl

theorem axisOf_append (f : Bytes) (hu : Ended u) :
    axisOf (f ++ u) = ((axisOf f).1, (axisOf f).2 ++ u) := by
  unfold axisOf
  rw [(span_append isBlank_fieldEnd f hu).2, takeSign_append_ended _ hu]
  dsimp only
  rw [(span_append isDigitByte_fieldEnd _ hu).1, (span_append isDigitByte_fieldEnd _ hu).2]

theorem axisOf_suffix (f : Bytes) : (axisOf f).2 <:+ f :=
  (List.dropWhile_suffix _).trans ((takeSign_suffix _).trans (List.dropWhile_suffix _))

theorem readControl_suffix (f : Bytes) (c : Control) : (readControl f c).2 <:+ f := by
  unfold readControl
  split_ifs
  · cases f with
    | nil => exact List.suffix_refl _
    | cons b f => exact List.suffix_cons b f
  · exact axisOf_suffix f
  · exact List.suffix_refl _

theorem readField_suffix (f : Bytes) (cs : List Control) : (readField f cs).2 <:+ f := by
  induction cs generalizing f with
  | nil => exact List.suffix_refl _
  | cons c cs ih => exact (ih _).trans (readControl_suffix f c)

theorem skipField_suffix (text : Bytes) : skipField text <:+ text := by
  fun_induction skipField text with
  | case1 => exact List.suffix_cons _ _
  | case2 | case4 => exact List.suffix_refl _
  | case3 b rest _ _ ih => exact ih.trans (List.suffix_cons b rest)

theorem readStep_suffix (st text : Bytes) (s : Step) : (readStep st text s).2 <:+ text := by
  fun_cases readStep st text s with
  | case1 | case2 | case8 | case9 => exact List.suffix_refl _
  | case3 | case4 => exact List.suffix_cons _ _
  | case5 _ o v rest h =>
    have hrest : rest = (axisOf text).2 := by rw [← readAxis_eq, h]
    rw [hrest]
    exact axisOf_suffix text
  | case6 | case7 => exact skipField_suffix text

/-- What steps leave of a line is the end of it. -/
theorem readSteps_suffix (st text : Bytes) (steps : List Step) :
    (readSteps st text steps).2 <:+ text := by
  induction steps generalizing st text with
  | nil => exact List.suffix_refl _
  | cons s steps ih => exact (ih _ _).trans (readStep_suffix st text s)

/-- A button reads its field as it reads the line. -/
theorem parseStep_button_append (hf : Plain f) (hu : Ended u) {c : Control} (hc : c.kind = .button)
    (o : ℕ) (m ch : UInt8) :
    parseStep (f ++ u) (.button o m ch) = ((readControl f c).1, (readControl f c).2 ++ u) := by
  unfold readControl
  rw [if_pos hc]
  cases f with
  | nil =>
    cases u with
    | nil => rfl
    | cons b u => simp [parseStep, hu b rfl]
  | cons b f =>
    have hb := hf b (by simp)
    simp only [List.cons_append, parseStep, hb, Bool.false_eq_true, if_false]
    split_ifs <;> rfl

/-- The button bits from `n` on that lie before byte `base` are clear. -/
def Clear (base n : ℕ) (s : Bytes) : Prop := ∀ i, n ≤ i → i < 8 * base → s.bitAt i = false

theorem Clear.storeStep_button {base b : ℕ} (h : Clear base b s) (v : Int16) (ch : UInt8) :
    Clear base (b + 1) (storeStep s v (.button (b / 8) (bitMask b) ch)) := by
  intro i h1 h2
  rw [storeStep]
  split_ifs
  · exact h i (by omega) h2
  · rw [bitAt_setMask_of_ne (by omega)]
    exact h i (by omega) h2

theorem Clear.setAxis {base n : ℕ} (h : Clear base n s) (j : ℕ) (v : Int16) :
    Clear base n (setAxis s (base + j) v) := by
  intro i h1 h2
  rw [bitAt_setAxis_of_lt v (by omega)]
  exact h i h1 h2

end Line

namespace Layout
open Bytes Line

variable {l : Layout} {f u s : Bytes} {base k : ℕ}

/-- Writing to a control whose bit is clear is storing at its step. -/
theorem write_eq_storeSteps {i : ℕ} {placed : Placed} {c : Control}
    (hl : l.lookup? k i = some (entryAt base k i placed c))
    (hz : c.kind = .button → s.bitAt placed.bits = false) (v : Int16) :
    l.write s k i v = storeSteps s (stepOf c (entryAt base k i placed c)) [v] := by
  unfold write
  rw [hl]
  unfold entryAt place stepOf
  by_cases hb : c.kind = .button
  · have hclear := clearMask_of_clear s (hz hb)
    rw [bitMask] at hclear
    by_cases hv : v = 0
    · simp [hb, hv, storeSteps, storeStep, hclear]
    · simp [hb, hv, storeSteps, storeStep]
  · by_cases ha : c.kind.isAxis = true
    · simp [hb, ha, storeSteps, storeStep]
    · simp [hb, ha, storeSteps]

/-- A control that is read from the line is written from its field. -/
theorem readSteps_stepOf {i : ℕ} {placed : Placed} {c : Control}
    (hl : l.lookup? k i = some (entryAt base k i placed c)) (hf : Plain f) (hu : Ended u)
    (hz : c.kind = .button → s.bitAt placed.bits = false) :
    readSteps s (f ++ u) (stepOf c (entryAt base k i placed c)) =
      (l.write s k i (readControl f c).1, (readControl f c).2 ++ u) := by
  rw [write_eq_storeSteps hl hz, readSteps_eq]
  unfold stepOf
  by_cases hb : c.kind = .button
  · rw [if_pos hb, parseSteps, parseStep_button_append hf hu hb]
    rfl
  · by_cases ha : c.kind.isAxis = true
    · have hread : readControl f c = axisOf f := by simp [readControl, hb, ha]
      rw [if_neg hb, if_pos ha, parseSteps, parseStep, readAxis_eq, axisOf_append f hu, hread]
      rfl
    · have hread : readControl f c = (0, f) := by simp [readControl, hb, ha]
      rw [if_neg hb, if_neg ha, hread]
      rfl

theorem clear_write {i : ℕ} {placed : Placed} {c : Control}
    (hl : l.lookup? k i = some (entryAt base k i placed c))
    (hz : c.kind = .button → s.bitAt placed.bits = false)
    (h : Clear base placed.bits s) (v : Int16) :
    Clear base (placed.next c).bits (l.write s k i v) := by
  rw [write_eq_storeSteps hl hz]
  unfold stepOf Placed.next entryAt place
  by_cases hb : c.kind = .button
  · simp only [hb, if_true]
    exact h.storeStep_button v c.movie
  · by_cases ha : c.kind.isAxis = true
    · simp only [hb, ha, if_true, if_false]
      exact h.setAxis _ v
    · simp only [hb, ha, if_false]
      exact h

/-- Writes values to the controls of a controller, from control `i` on. -/
def writeControls (l : Layout) (k : ℕ) : (i : ℕ) → Bytes → List Int16 → Bytes
  | _, s, [] => s
  | i, s, v :: vs => writeControls l k (i + 1) (l.write s k i v) vs

theorem readSteps_append (s text : Bytes) (xs ys : List Step) :
    readSteps s text (xs ++ ys) =
      readSteps (readSteps s text xs).1 (readSteps s text xs).2 ys := by
  induction xs generalizing s text with
  | nil => rfl
  | cons x xs ih => exact ih _ _

theorem bits_le_foldl_next (placed : Placed) (cs : List Control) :
    placed.bits ≤ (cs.foldl Placed.next placed).bits := by
  rw [foldl_next]
  exact Nat.le_add_right _ _

/-- A controller that is read from the line is written from its field. -/
theorem readSteps_planControls {cs : List Control} {i : ℕ} {placed : Placed}
    (hl : ∀ (pre : List Control) c post, cs = pre ++ c :: post →
      l.lookup? k ((i + pre.length : ℕ) : ℤ) =
      some (entryAt base k (i + pre.length) (pre.foldl Placed.next placed) c))
    (hf : Plain f) (hu : Ended u) (hz : Clear base placed.bits s)
    (hb : (cs.foldl Placed.next placed).bits ≤ 8 * base) :
    readSteps s (f ++ u) (planControls base k i placed cs).2.1 =
        (writeControls l k i s (readField f cs).1, (readField f cs).2 ++ u) ∧
      Clear base (cs.foldl Placed.next placed).bits (writeControls l k i s (readField f cs).1) := by
  induction cs generalizing i placed s f with
  | nil => exact ⟨rfl, hz⟩
  | cons c cs ih =>
    have hlook : l.lookup? k i = some (entryAt base k i placed c) := hl [] c cs rfl
    have hbit : c.kind = .button → s.bitAt placed.bits = false := by
      intro hc
      have hle := bits_le_foldl_next (placed.next c) cs
      rw [List.foldl_cons] at hb
      simp only [Placed.next, hc, if_true] at hle hb
      exact hz _ le_rfl (by omega)
    have hl' : ∀ pre x post, cs = pre ++ x :: post → l.lookup? k ((i + 1 + pre.length : ℕ) : ℤ) =
        some (entryAt base k (i + 1 + pre.length) (pre.foldl Placed.next (placed.next c)) x) := by
      intro pre x post h
      have := hl (c :: pre) x post (by rw [h]; rfl)
      rwa [show i + (c :: pre).length = i + 1 + pre.length by simp; omega] at this
    rw [planControls_steps_cons, readSteps_append, readSteps_stepOf hlook hf hu hbit]
    exact ih hl' (hf.of_suffix (readControl_suffix f c))
      (clear_write hlook hbit hz (readControl f c).1) hb

/-- The number of a controller's field; a system port has no separator in front. -/
def fieldNumber (p : Port) (k : ℕ) : ℕ := if p.isLegal 0 then k else k + 1

/-- Reads controllers from controller `k` on, each from a field of its own. -/
def writeFields (p : Port) (text : Bytes) : (k : ℕ) → Bytes → List Controller → Bytes
  | _, s, [] => s
  | k, s, c :: cs =>
    let values := (readField (fieldAt text (fieldNumber p k)) c.controls).1
    writeFields p text (k + 1) (writeControls (plan p) k 0 s values) cs

theorem readSteps_separator (s text : Bytes) (system : Bool) (k : ℕ) :
    readSteps s text (separator system k) =
      (s, if k = 0 ∧ system = true then text else skipField text) := by
  unfold separator
  cases system <;> by_cases hk : k = 0 <;> simp [hk, readSteps, readStep]

theorem bits_le_base {p : Port} {pre post : List Control} (h : controlsOf p = pre ++ post) :
    (pre.foldl Placed.next {}).bits ≤ 8 * (((plan p).buttonBits + 7) / 8) := by
  have hcount : (plan p).buttonBits = (pre ++ post).countP (·.kind = .button) := by
    rw [← h]; rfl
  rw [List.countP_append] at hcount
  rw [foldl_next]
  dsimp only
  omega

/-- The program reads each controller from its own field, and ends in the last one. -/
theorem readSteps_planControllers {p : Port} {pre cs : List Controller} {text r : Bytes}
    (hp : p.controllers = pre ++ cs)
    (hr : (if pre.length = 0 ∧ p.isSystem = true then r else skipField r) =
      skipField^[fieldNumber p pre.length] text)
    (hz : Clear (((plan p).buttonBits + 7) / 8)
      ((pre.flatMap (·.controls)).foldl Placed.next {}).bits s) :
    (readSteps s r (planControllers (((plan p).buttonBits + 7) / 8) (plan p).stride p.isSystem
        pre.length ((pre.flatMap (·.controls)).foldl Placed.next {}) cs).2).1 =
        writeFields p text pre.length s cs ∧
      ∀ c ∈ cs.getLast?, (readSteps s r (planControllers (((plan p).buttonBits + 7) / 8)
          (plan p).stride p.isSystem pre.length
          ((pre.flatMap (·.controls)).foldl Placed.next {}) cs).2).2 =
        (readField (fieldAt text (fieldNumber p (p.controllers.length - 1))) c.controls).2 ++
          behind text (fieldNumber p (p.controllers.length - 1)) := by
  induction cs generalizing pre r s with
  | nil => exact ⟨rfl, by simp⟩
  | cons c cs ih =>
    obtain ⟨hcut, hplain⟩ := skipField_iterate text (fieldNumber p pre.length)
    have hended := ended_behind text (fieldNumber p pre.length)
    have hlook : ∀ (cpre : List Control) x cpost, c.controls = cpre ++ x :: cpost →
        (plan p).lookup? pre.length ((0 + cpre.length : ℕ) : ℤ) =
          some (entryAt (((plan p).buttonBits + 7) / 8) pre.length (0 + cpre.length)
            (cpre.foldl Placed.next ((pre.flatMap (·.controls)).foldl Placed.next {})) x) := by
      intro cpre x cpost hx
      have := lookup?_plan hp hx
      rwa [List.foldl_append, ← Nat.zero_add cpre.length] at this
    have hbits : (c.controls.foldl Placed.next
        ((pre.flatMap (·.controls)).foldl Placed.next {})).bits ≤
          8 * (((plan p).buttonBits + 7) / 8) := by
      rw [← List.foldl_append]
      apply bits_le_base
      rw [controlsOf, hp, List.flatMap_append, List.flatMap_cons, List.append_assoc]
    obtain ⟨hread, hclear⟩ := readSteps_planControls hlook hplain hended hz hbits
    have hplaced : (pre ++ [c]).flatMap (·.controls) = pre.flatMap (·.controls) ++ c.controls := by
      simp
    -- the next separator leads to the next field, wherever the controls stopped
    have hnext : skipField ((readField (fieldAt text (fieldNumber p pre.length)) c.controls).2 ++
        behind text (fieldNumber p pre.length)) =
          skipField^[fieldNumber p (pre ++ [c]).length] text := by
      rw [skipField_append (hplain.of_suffix (readField_suffix _ _)),
        ← skipField_append hplain, ← hcut, ← Function.iterate_succ_apply' skipField]
      congr 1
      unfold fieldNumber
      split_ifs <;> simp
    rw [planControllers_steps_cons, readSteps_append, readSteps_append,
      readSteps_separator, hr, hcut, hread]
    have hp' : p.controllers = (pre ++ [c]) ++ cs := by rw [hp]; simp
    rw [← List.foldl_append, ← hplaced] at hclear ⊢
    have hlen : pre.length + 1 = (pre ++ [c]).length := by simp
    obtain ⟨hstate, hrest⟩ := ih hp' (by rw [if_neg (by simp)]; exact hnext) hclear
    rw [hlen]
    refine ⟨?_, ?_⟩
    · rw [hstate, writeFields, hlen]
    · intro d hd
      cases cs with
      | nil =>
        obtain rfl : c = d := by simpa using hd
        have hlast : p.controllers.length - 1 = pre.length := by rw [hp]; simp
        rw [hlast]
        rfl
      | cons e cs => exact hrest d (by simpa using hd)

/-- The state that the controllers of a port read from their fields. -/
def fieldState (p : Port) (text : Bytes) : Bytes :=
  writeFields p text 0 (plan p).newState p.controllers

/-- How far the controllers of a port read: to where the last one stops in its field, or to the
end of a line that lacks this field. -/
def fieldCount (p : Port) (text : Bytes) : ℕ :=
  let i := fieldNumber p (p.controllers.length - 1)
  match (fields text)[i]?, p.controllers.getLast? with
  | some field, some c =>
    fieldStart (fields text) i + (field.length - (readField field c.controls).2.length)
  | _, _ => (lineBody text).length

theorem readSteps_program (p : Port) (text : Bytes) :
    (readSteps (plan p).newState text (plan p).program).1 = fieldState p text ∧
      ∀ c ∈ p.controllers.getLast?, (readSteps (plan p).newState text (plan p).program).2 =
        (readField (fieldAt text (fieldNumber p (p.controllers.length - 1))) c.controls).2 ++
          behind text (fieldNumber p (p.controllers.length - 1)) := by
  have hstart : (if ([] : List Controller).length = 0 ∧ p.isSystem = true then text
      else skipField text) = skipField^[fieldNumber p ([] : List Controller).length] text := by
    unfold fieldNumber Port.isSystem
    cases p.isLegal 0 <;> simp
  have hz : Clear (((plan p).buttonBits + 7) / 8) 0 (plan p).newState :=
    fun i _ _ => bitAt_zeros _ i
  have hrun :=
    @readSteps_planControllers (plan p).newState p [] p.controllers text text rfl hstart hz
  have hend : ∀ s r, readSteps s r [lastStep p] = (s, r) := by
    intro s r
    unfold lastStep
    split_ifs <;> rfl
  rw [plan_program, readSteps_append, hend]
  exact hrun

/-- What the last controller leaves of a line is what its count leaves. -/
theorem length_eq_fieldCount_add {p : Port} {c : Controller}
    (hlast : p.controllers.getLast? = some c) (text : Bytes) :
    text.length = fieldCount p text +
      ((readField (fieldAt text (fieldNumber p (p.controllers.length - 1))) c.controls).2 ++
        behind text (fieldNumber p (p.controllers.length - 1))).length := by
  unfold fieldCount
  rw [hlast]
  generalize fieldNumber p (p.controllers.length - 1) = i
  dsimp only
  have hcut := congrArg List.length (skipField_iterate text i).1
  have hused := length_skipField_iterate text i
  have hle := (readField_suffix (fieldAt text i) c.controls).length_le
  rw [List.length_append] at hcut ⊢
  by_cases hf : i < (fields text).length
  · have hfield : fieldAt text i = (fields text)[i] := by simp [fieldAt, hf]
    rw [if_pos hf] at hused
    rw [hfield] at hcut hle ⊢
    rw [List.getElem?_eq_getElem hf]
    dsimp only
    omega
  · have hfield : fieldAt text i = [] := by simp [fieldAt, hf]
    rw [if_neg hf] at hused
    rw [hfield] at hcut hle ⊢
    rw [List.getElem?_eq_none (by omega)]
    simp only [List.length_nil] at hcut hle ⊢
    omega

/-- Reading a line is reading each controller from its own field: the state in front, what the
buffer held behind it, and the number of bytes used. -/
theorem deserialize_eq_fields {p : Port} {s : Bytes} (hv : p.validate = .ok ())
    (hc : p.controllers ≠ []) (hs : (plan p).storageSize ≤ s.length) (text : Bytes) :
    ((plan p).deserialize s text).2.take (plan p).storageSize = fieldState p text ∧
      ((plan p).deserialize s text).2.drop (plan p).storageSize = s.drop (plan p).storageSize ∧
      ((plan p).deserialize s text).1 = fieldCount p text := by
  have hvalid := (Port.validate_ok_iff p).1 hv
  obtain ⟨c, hlast⟩ : ∃ c, p.controllers.getLast? = some c :=
    ⟨_, List.getLast?_eq_some_getLast hc⟩
  obtain ⟨hstate, hrest⟩ := readSteps_program p text
  have hlen : (fieldState p text).length = (plan p).storageSize := by
    rw [← hstate, readSteps_eq, storeSteps_length, newState_length]
  have hcount := length_eq_fieldCount_add hlast text
  rw [← hrest c hlast, readSteps_eq] at hcount
  rw [readSteps_eq] at hstate
  dsimp only at hstate hcount
  rw [deserialize_eq hvalid hc text hs, hstate]
  refine ⟨List.take_left' hlen, List.drop_left' hlen, ?_⟩
  dsimp only
  omega

def twoPads : Port where
  name := [112]
  humanName := [112]
  symbol := [112]
  controllers := [⟨[], [], [.button [65] 65, .button [66] 66]⟩,
    ⟨[], [], [.axis [88] .axis (-100) 100, .button [67] 67]⟩]
  slots := [1]

/-- The line `"|ABZZ| -70000C"`, an end of line and more: the long first field shifts nothing. -/
theorem twoPads_long_field :
    ((plan twoPads).deserialize [255, 255, 255, 255]
      [124, 65, 66, 90, 90, 124, 32, 45, 55, 48, 48, 48, 48, 67, 10, 124]) =
        (14, [7, 144, 238, 255]) := by
  have hread := deserialize_eq_fields (p := twoPads) (s := [255, 255, 255, 255]) rfl (by decide)
    (by decide) [124, 65, 66, 90, 90, 124, 32, 45, 55, 48, 48, 48, 48, 67, 10, 124]
  have hstate : fieldState twoPads
      [124, 65, 66, 90, 90, 124, 32, 45, 55, 48, 48, 48, 48, 67, 10, 124] = [7, 144, 238] := by
    decide +kernel
  have hcount : fieldCount twoPads
      [124, 65, 66, 90, 90, 124, 32, 45, 55, 48, 48, 48, 48, 67, 10, 124] = 14 := by
    decide +kernel
  have hsize : (plan twoPads).storageSize = 3 := by decide
  rw [hstate, hcount, hsize] at hread
  obtain ⟨htake, hdrop, hn⟩ := hread
  apply Prod.ext
  · exact hn
  · rw [← List.take_append_drop 3 (deserialize _ _ _).2, htake, hdrop]
    rfl

end Layout
end PortCodec
