import PortCodec.Proofs.AxisText
import PortCodec.Proofs.CanonicalState

/-! Reading back what was written. A line gives its state back exactly when no held button that
is spelled by a digit stands directly behind an axis: there the digit is read into the number,
and every later button of the field is read from the wrong byte. -/

namespace PortCodec

namespace Line
open Bytes Decimal Layout

/-- A held button spelled by a digit stands directly behind an axis. -/
def Merged (s : Bytes) (steps : List Step) : Prop :=
  ∃ a o m c, [.axis a, .button o m c] <:+: steps ∧ isDigitByte c = true ∧ testMask s o m = true

/-- Every button is spelled by a byte that may stand for one. -/
def Spelled (steps : List Step) : Prop := ∀ o m c, .button o m c ∈ steps → isMovieByte c = true

def isButton : Step → Bool
  | .button .. => true
  | _ => false

variable {s : Bytes} {steps : List Step}

theorem Spelled.tail {x : Step} (h : Spelled (x :: steps)) : Spelled steps :=
  fun o m c hm => h o m c (List.mem_cons_of_mem _ hm)

theorem spelled_of_laid {base : ℕ} {p q : Placed} (h : Laid base p steps q) : Spelled steps :=
  fun _ _ _ hm => (h.button_mem hm).1

theorem isMovieByte_ne {c : UInt8} (h : isMovieByte c = true) :
    isFieldEnd c = false ∧ c ≠ 46 ∧ c ≠ 32 := by
  have hne : ∀ b, isMovieByte b = false → c ≠ b := by
    rintro b hb rfl
    simp [h] at hb
  have h124 := hne 124 rfl
  have h13 := hne 13 rfl
  have h10 := hne 10 rfl
  have h0 := hne 0 rfl
  exact ⟨by simp [isFieldEnd, h124, h13, h10, h0], hne 46 rfl, hne 32 rfl⟩

/-- The byte of a button in a line. -/
theorem button_byte (s : Bytes) (o : ℕ) (m : UInt8) {c : UInt8} (hc : isMovieByte c = true) :
    ∃ b, stepText s (.button o m c) = [b] ∧ isFieldEnd b = false ∧ b ≠ 32 ∧
      stepValue s (.button o m c) = if b = 46 then 0 else 1 := by
  obtain ⟨he, hd, hb⟩ := isMovieByte_ne hc
  by_cases h : testMask s o m = true
  · exact ⟨c, by simp [stepText, h], he, hb, by simp [stepValue, h, hd]⟩
  · exact ⟨46, by simp [stepText, h], rfl, by decide, by simp [stepValue, h]⟩

theorem parseStep_byte {b : UInt8} (he : isFieldEnd b = false) (hb : b ≠ 32) (rest : Bytes) (o : ℕ)
    (m c : UInt8) : parseStep (b :: rest) (.button o m c) = (if b = 46 then 0 else 1, rest) := by
  simp only [parseStep, he, hb, or_false, Bool.false_eq_true, if_false]
  split_ifs <;> rfl

/-- A step reads its own text, unless it is an axis with a digit behind it. -/
theorem parseStep_stepText {x : Step} (hx : Spelled [x]) {rest : Bytes}
    (ha : ∀ o, x = .axis o → rest.takeWhile isDigitByte = []) :
    parseStep (stepText s x ++ rest) x = (stepValue s x, rest) := by
  cases x with
  | button o m c =>
    obtain ⟨b, ht, he, hb, hv⟩ := button_byte s o m (hx o m c (by simp))
    rw [ht, hv]
    exact parseStep_byte he hb rest o m c
  | axis o => exact readAxis_axisText _ (ha o rfl)
  | leadingPipe => rfl
  | pipe => rfl
  | finish => rfl
  | finishEmpty => rfl

/-- The text of steps starts with a digit only where a held digit button comes first. -/
theorem takeWhile_text (he : ∀ x ∈ steps, x.isEnd = false)
    (hb : ∀ o m c rest, steps = .button o m c :: rest → isDigitByte c = true →
      testMask s o m = false) :
    (steps.flatMap (stepText s)).takeWhile isDigitByte = [] := by
  cases steps with
  | nil => rfl
  | cons x rest =>
    rw [List.flatMap_cons]
    cases x with
    | button o m c =>
      have hd : isDigitByte (if testMask s o m then c else 46) = false := by
        by_cases hc : isDigitByte c = true
        · rw [hb o m c rest rfl hc]; rfl
        · split_ifs
          · simpa using hc
          · rfl
      unfold stepText
      rw [List.singleton_append, List.takeWhile_cons_of_neg (by simp [hd])]
    | axis o => rfl
    | leadingPipe => rfl
    | pipe => rfl
    | finish => simpa [Step.isEnd] using he _ (List.mem_cons_self)
    | finishEmpty => simpa [Step.isEnd] using he _ (List.mem_cons_self)

theorem merged_cons {x : Step} : Merged s (x :: steps) ↔
    (∃ a o m c rest, x = .axis a ∧ steps = .button o m c :: rest ∧ isDigitByte c = true ∧
      testMask s o m = true) ∨ Merged s steps := by
  constructor
  · rintro ⟨a, o, m, c, hi, hd, ht⟩
    rcases List.infix_cons_iff.1 hi with h | h
    · obtain ⟨rest, h⟩ := h
      simp only [List.cons_append, List.nil_append, List.cons.injEq] at h
      exact Or.inl ⟨a, o, m, c, rest, h.1.symm, h.2.symm, hd, ht⟩
    · exact Or.inr ⟨a, o, m, c, h, hd, ht⟩
  · rintro (⟨a, o, m, c, rest, rfl, rfl, hd, ht⟩ | ⟨a, o, m, c, hi, hd, ht⟩)
    · exact ⟨a, o, m, c, ⟨[], rest, rfl⟩, hd, ht⟩
    · exact ⟨a, o, m, c, hi.trans (List.suffix_cons x steps).isInfix, hd, ht⟩

/-- The head of a program reads its own text unless a digit button merges into it. -/
theorem parseStep_head {x : Step} (he : ∀ y ∈ steps, y.isEnd = false) (hs : Spelled (x :: steps))
    (hm : ¬ ∃ a o m c rest, x = .axis a ∧ steps = .button o m c :: rest ∧ isDigitByte c = true ∧
      testMask s o m = true) :
    parseStep ((x :: steps).flatMap (stepText s)) x =
      (stepValue s x, steps.flatMap (stepText s)) := by
  rw [List.flatMap_cons]
  apply parseStep_stepText
  · intro o m c h
    exact hs o m c (by rw [List.mem_singleton.1 h]; simp)
  · rintro a rfl
    apply takeWhile_text he
    intro o m c rest hr hd
    by_contra ht
    exact hm ⟨a, o, m, c, rest, rfl, hr, hd, by simpa using ht⟩

theorem parseSteps_text (he : ∀ x ∈ steps, x.isEnd = false) (hs : Spelled steps)
    (hm : ¬ Merged s steps) :
    parseSteps (steps.flatMap (stepText s)) steps = (steps.map (stepValue s), []) := by
  induction steps with
  | nil => rfl
  | cons x steps ih =>
    rw [merged_cons, not_or] at hm
    have he' : ∀ y ∈ steps, y.isEnd = false := fun y hy => he y (List.mem_cons_of_mem _ hy)
    rw [parseSteps, parseStep_head he' hs hm.1, ih he' hs.tail hm.2]
    rfl

theorem count_le_length (text : Bytes) (bs : List Step) :
    (parseSteps text bs).1.count 1 ≤ bs.length := by
  have := List.count_le_length (a := (1 : Int16)) (l := (parseSteps text bs).1)
  rwa [parseSteps_length] at this

/-- Buttons that find too few bytes before a byte that holds none: one of them is lost. -/
theorem count_parseSteps_lt {left after : Bytes} {bs : List Step}
    (hbs : ∀ b ∈ bs, isButton b = true) (hleft : ∀ b ∈ left, isFieldEnd b = false ∧ b ≠ 32)
    (hafter : ∀ o m c, (parseStep after (.button o m c)).1 = 0) (hlen : left.length < bs.length) :
    (parseSteps (left ++ after) bs).1.count 1 + left.length <
      left.countP (· ≠ 46) + bs.length := by
  induction left generalizing bs with
  | nil =>
    obtain ⟨x, bs, rfl⟩ := List.exists_cons_of_length_pos hlen
    have hx := hbs x (by simp)
    cases x with
    | button o m c =>
      have := count_le_length (parseStep after (.button o m c)).2 bs
      rw [List.nil_append, parseSteps, hafter o m c, List.count_cons_of_ne (by decide)]
      simp
      omega
    | _ => simp [isButton] at hx
  | cons b left ih =>
    obtain ⟨x, bs, rfl⟩ := List.exists_cons_of_length_pos (Nat.zero_lt_of_lt hlen)
    have hx := hbs x (by simp)
    obtain ⟨he, hb⟩ := hleft b (by simp)
    cases x with
    | button o m c =>
      have hbs' : ∀ y ∈ bs, isButton y = true := fun y hy => hbs y (by simp [hy])
      have := ih hbs' (fun y hy => hleft y (by simp [hy])) (by simpa using hlen)
      rw [List.cons_append, parseSteps, parseStep_byte he hb]
      by_cases hd : b = 46
      · simp [hd] at this ⊢
        omega
      · simp [hd] at this ⊢
        omega
    | _ => simp [isButton] at hx

/-- The bytes of a run of buttons, and how many of them are held. -/
theorem buttons_text {bs : List Step} (hbs : ∀ b ∈ bs, isButton b = true) (hs : Spelled bs) :
    (bs.flatMap (stepText s)).length = bs.length ∧
      (∀ b ∈ bs.flatMap (stepText s), isFieldEnd b = false ∧ b ≠ 32) ∧
      (bs.map (stepValue s)).count 1 = (bs.flatMap (stepText s)).countP (· ≠ 46) := by
  induction bs with
  | nil => simp
  | cons x bs ih =>
    obtain ⟨h1, h2, h3⟩ := ih (fun y hy => hbs y (by simp [hy])) hs.tail
    have hx := hbs x (by simp)
    cases x with
    | button o m c =>
      obtain ⟨b, ht, he, hb, hv⟩ := button_byte s o m (hs o m c (by simp))
      rw [List.flatMap_cons, ht, List.map_cons, hv]
      refine ⟨by simp [h1], ?_, ?_⟩
      · intro y hy
        rcases List.mem_cons.1 hy with rfl | hy
        · exact ⟨he, hb⟩
        · exact h2 y hy
      · by_cases hd : b = 46
        · simp [hd, h3]
        · simp [hd, h3]
    | _ => simp [isButton] at hx

/-- A button finds nothing at the start of the text of steps that begin with no button. -/
theorem parseStep_text_button {more : List Step} (he : ∀ x ∈ more, x.isEnd = false)
    (hm : ∀ x ∈ more.head?, isButton x = false) (o : ℕ) (m c : UInt8) :
    (parseStep (more.flatMap (stepText s)) (.button o m c)).1 = 0 := by
  cases more with
  | nil => rfl
  | cons x more =>
    rw [List.flatMap_cons]
    cases x with
    | button o m c => simpa [isButton] using hm (.button o m c) rfl
    | axis o => rfl
    | leadingPipe => rfl
    | pipe => rfl
    | finish => simpa [Step.isEnd] using he _ List.mem_cons_self
    | finishEmpty => simpa [Step.isEnd] using he _ List.mem_cons_self

/-- The buttons that a program starts with, and the steps behind them. -/
theorem exists_buttons (steps : List Step) : ∃ bs more, steps = bs ++ more ∧
    (∀ b ∈ bs, isButton b = true) ∧ ∀ x ∈ more.head?, isButton x = false := by
  induction steps with
  | nil => exact ⟨[], [], rfl, by simp, by simp⟩
  | cons x steps ih =>
    cases hx : isButton x
    · refine ⟨[], x :: steps, rfl, by simp, ?_⟩
      rintro y ⟨⟩
      exact hx
    · obtain ⟨bs, more, rfl, hbs, hmore⟩ := ih
      refine ⟨x :: bs, more, rfl, ?_, hmore⟩
      intro y hy
      rcases List.mem_cons.1 hy with rfl | hy
      · exact hx
      · exact hbs y hy

theorem dropWhile_text {bs more : List Step} (he : ∀ x ∈ more, x.isEnd = false)
    (hm : ∀ x ∈ more.head?, isButton x = false) :
    ((bs ++ more).flatMap (stepText s)).dropWhile isDigitByte =
      (bs.flatMap (stepText s)).dropWhile isDigitByte ++ more.flatMap (stepText s) := by
  have hstop : (more.flatMap (stepText s)).takeWhile isDigitByte = [] := by
    apply takeWhile_text he
    rintro o m c rest rfl
    simpa [isButton] using hm (.button o m c) rfl
  have hmore := List.dropWhile_eq_self_iff.2 (List.takeWhile_eq_nil_iff.1 hstop)
  rw [List.flatMap_append, List.dropWhile_append]
  split_ifs with h
  · rw [hmore, List.isEmpty_iff.1 h, List.nil_append]
  · rfl

/-- Digits read into an axis are missing from the buttons behind it, so too few are found. -/
theorem parseSteps_ne_of_digit {a o : ℕ} {m c : UInt8} {rest : List Step}
    (he : ∀ x ∈ .button o m c :: rest, x.isEnd = false) (hs : Spelled (.button o m c :: rest))
    (hd : isDigitByte c = true) (ht : testMask s o m = true) :
    (parseSteps ((.axis a :: .button o m c :: rest).flatMap (stepText s))
        (.axis a :: .button o m c :: rest)).1 ≠
      (.axis a :: .button o m c :: rest).map (stepValue s) := by
  intro hv
  obtain ⟨bs, more, hsplit, hbs, hmore⟩ := exists_buttons rest
  subst hsplit
  have hbs' : ∀ b ∈ .button o m c :: bs, isButton b = true := by
    intro b hb
    rcases List.mem_cons.1 hb with rfl | hb
    · rfl
    · exact hbs b hb
  have hem : ∀ x ∈ more, x.isEnd = false := fun x hx => he x (by simp [hx])
  have hsb : Spelled (.button o m c :: bs) := fun o' m' c' h => hs o' m' c' (by simp at h ⊢; tauto)
  obtain ⟨hlen, hbytes, hcount⟩ := buttons_text (s := s) hbs' hsb
  -- the bytes of the buttons: those that the axis takes, and those that are left
  have hsum := List.takeWhile_append_dropWhile (p := isDigitByte)
    (l := (Step.button o m c :: bs).flatMap (stepText s))
  set text := (Step.button o m c :: bs).flatMap (stepText s) with htext
  have heaten : 0 < (text.takeWhile isDigitByte).length := by
    rw [htext, List.flatMap_cons, stepText, ht, List.singleton_append,
      List.takeWhile_cons_of_pos (by simpa using hd)]
    simp
  have hheld :
      (text.takeWhile isDigitByte).countP (· ≠ 46) = (text.takeWhile isDigitByte).length := by
    rw [List.countP_eq_length]
    intro b hb
    have := List.mem_takeWhile_imp hb
    have hne : b ≠ 46 := by rintro rfl; simp [isDigitByte] at this
    simpa using hne
  -- the buttons are read from what is left
  have hread : (parseSteps (text.dropWhile isDigitByte ++ more.flatMap (stepText s))
      (.button o m c :: bs)).1 = (Step.button o m c :: bs).map (stepValue s) := by
    rw [← List.cons_append, List.map_cons, List.flatMap_cons, parseSteps] at hv
    obtain ⟨-, hv⟩ := List.cons.inj hv
    rw [parseStep, stepText, readAxis_axisText_snd, dropWhile_text hem hmore, parseSteps_append,
      List.map_append] at hv
    exact List.append_inj_left hv (by rw [parseSteps_length, List.length_map])
  have hleft : ∀ b ∈ text.dropWhile isDigitByte, isFieldEnd b = false ∧ b ≠ 32 :=
    fun b hb => hbytes b (List.dropWhile_subset _ hb)
  have hparts := congrArg List.length hsum
  rw [List.length_append] at hparts
  have hlt := count_parseSteps_lt hbs' hleft (parseStep_text_button (s := s) hem hmore)
    (by omega)
  have hsum' := congrArg (List.countP (· ≠ 46)) hsum
  rw [List.countP_append, hheld] at hsum'
  rw [hread, hcount] at hlt
  omega

theorem not_merged_of_parseSteps (he : ∀ x ∈ steps, x.isEnd = false) (hs : Spelled steps)
    (h : (parseSteps (steps.flatMap (stepText s)) steps).1 = steps.map (stepValue s)) :
    ¬ Merged s steps := by
  induction steps with
  | nil =>
    rintro ⟨a, o, m, c, hi, -⟩
    simp at hi
  | cons x steps ih =>
    have he' : ∀ y ∈ steps, y.isEnd = false := fun y hy => he y (List.mem_cons_of_mem _ hy)
    by_cases hm : ∃ a o m c rest, x = .axis a ∧ steps = .button o m c :: rest ∧
        isDigitByte c = true ∧ testMask s o m = true
    · obtain ⟨a, o, m, c, rest, rfl, rfl, hd, ht⟩ := hm
      exact absurd h (parseSteps_ne_of_digit he' hs.tail hd ht)
    · -- the head is read right, so the fault would be behind it
      rw [parseSteps, parseStep_head he' hs hm, List.map_cons] at h
      rw [merged_cons, not_or]
      exact ⟨hm, ih he' hs.tail (List.cons.inj h).2⟩

theorem merged_concat_end {e : Step} (he : e.isEnd = true) :
    Merged s (steps ++ [e]) ↔ Merged s steps := by
  constructor
  · rintro ⟨a, o, m, c, hi, hd, ht⟩
    rcases List.infix_concat_iff.1 hi with ⟨pre, h⟩ | h
    · -- the last step of the program is no button
      have := congrArg List.getLast? h
      simp at this
      subst this
      simp [Step.isEnd] at he
    · exact ⟨a, o, m, c, h, hd, ht⟩
  · rintro ⟨a, o, m, c, hi, hd, ht⟩
    exact ⟨a, o, m, c, hi.trans (List.prefix_append _ _).isInfix, hd, ht⟩

end Line

namespace Layout
open Bytes Decimal Line

variable {p : Port} {s t : Bytes}

theorem stepText_end {e : Step} (he : e.isEnd = true) : stepText s e = [] := by
  cases e <;> simp_all [Step.isEnd, stepText]

theorem parseStep_end {e : Step} (he : e.isEnd = true) (text : Bytes) :
    parseStep text e = (stepValue s e, text) := by
  cases e <;> simp_all [Step.isEnd, parseStep, stepValue]

theorem serialize_eq_body (p : Port) (s : Bytes) :
    (plan p).serialize s = (body p).flatMap (stepText s) := by
  rw [serialize, plan_program, List.flatMap_append]
  simp [stepText_end (lastStep_isEnd p)]

/-- The line of a state spells its values exactly when no button merges into an axis. -/
theorem parseSteps_serialize_iff (hv : p.Valid) (s : Bytes) :
    parseSteps ((plan p).serialize s) (plan p).program = ((plan p).program.map (stepValue s), []) ↔
      ¬ Merged s (plan p).program := by
  have hs := spelled_of_laid (body_laid hv)
  rw [serialize_eq_body, plan_program, merged_concat_end (lastStep_isEnd p),
    parseSteps_append, parseSteps, parseStep_end (s := s) (lastStep_isEnd p), List.map_append]
  constructor
  · intro h
    apply not_merged_of_parseSteps (body_isEnd p) hs
    exact List.append_inj_left (congrArg Prod.fst h) (by rw [parseSteps_length, List.length_map])
  · intro h
    rw [parseSteps_text (body_isEnd p) hs h]
    rfl

theorem deserialize_serialize_iff_parseSteps (hv : p.Valid) (hc : p.controllers ≠ [])
    (hs : s.length = (plan p).storageSize) (ht : t.length = (plan p).storageSize) :
    (plan p).deserialize t ((plan p).serialize s) =
        ((((plan p).serialize s).length : ℤ), (plan p).canonicalize s) ↔
      parseSteps ((plan p).serialize s) (plan p).program =
        ((plan p).program.map (stepValue s), []) := by
  rw [deserialize_eq hv hc _ (Nat.le_of_eq ht.symm), List.drop_of_length_le (Nat.le_of_eq ht),
    List.append_nil]
  constructor
  · intro h
    obtain ⟨hn, hstate⟩ := Prod.mk.inj h
    apply Prod.ext
    · rw [← map_stepValue_newState hv, hstate, map_stepValue_canonicalize hv]
    · exact List.length_eq_zero_iff.1 (by omega)
  · intro h
    rw [h, storeSteps_newState hv hs]
    simp

/-- A state comes back from its line exactly when it holds no digit button behind an axis. -/
theorem deserialize_serialize_iff (hv : p.validate = .ok ()) (hc : p.controllers ≠ [])
    (hs : s.length = (plan p).storageSize) (ht : t.length = (plan p).storageSize) :
    (plan p).deserialize t ((plan p).serialize s) =
        ((((plan p).serialize s).length : ℤ), (plan p).canonicalize s) ↔
      ¬ ∃ a o m c, [.axis a, .button o m c] <:+: (plan p).program ∧ isDigitByte c = true ∧
        testMask s o m = true := by
  have hvalid := (Port.validate_ok_iff p).1 hv
  rw [deserialize_serialize_iff_parseSteps hvalid hc hs ht]
  exact parseSteps_serialize_iff hvalid s

/-- An axis, an empty place, and two buttons of which the first is spelled by a digit. -/
def digitPort : Port where
  name := [112]
  humanName := [112]
  symbol := [112]
  controllers := [⟨[], [], [.axis [88] .axis (-100) 100, {}, .button [55] 55, .button [65] 65]⟩]
  slots := [0]

/-- With the digit button up, the line `" 1.A"` gives the state back. -/
theorem digitPort_released_comes_back :
    (plan digitPort).deserialize [255, 255, 255] ((plan digitPort).serialize [2, 1, 0]) =
      ((((plan digitPort).serialize [2, 1, 0]).length : ℤ),
        (plan digitPort).canonicalize [2, 1, 0]) := by
  refine (deserialize_serialize_iff rfl (by decide) rfl rfl).2 ?_
  rintro ⟨a, o, m, c, hi, hd, ht⟩
  have hp : (plan digitPort).program = [.axis 1, .button 0 1 55, .button 0 2 65, .finish] := by
    decide
  rw [hp] at hi
  simp only [List.infix_cons_iff, List.cons_prefix_cons, Step.button.injEq] at hi
  obtain ⟨-, ⟨rfl, rfl, rfl⟩, -⟩ | ⟨h, -⟩ | ⟨h, -⟩ | ⟨h, -⟩ | h := hi
  · revert ht
    decide
  all_goals simp at h

/-- With both buttons held, the line `" 17A"` is read as the axis value 17 and one held button. -/
theorem not_deserialize_serialize : ¬ ∀ (p : Port) (s t : Bytes), p.validate = .ok () →
    p.controllers ≠ [] → s.length = (plan p).storageSize → t.length = (plan p).storageSize →
      (plan p).deserialize t ((plan p).serialize s) =
        ((((plan p).serialize s).length : ℤ), (plan p).canonicalize s) := by
  intro h
  have hread : (plan digitPort).deserialize [0, 0, 0] ((plan digitPort).serialize [3, 1, 0]) =
      (4, [1, 17, 0]) := by decide +kernel
  have hclaim := h digitPort [3, 1, 0] [0, 0, 0] rfl (by decide) rfl rfl
  rw [hread] at hclaim
  exact absurd (congrArg Prod.snd hclaim) (by decide)

theorem bitAt_ones {n i : ℕ} (h : i / 8 < n) : bitAt (List.replicate n 255) i = true := by
  have hk : i % 8 < 8 := Nat.mod_lt _ (by norm_num)
  have hb : byteAt (List.replicate n 255) (i / 8) = 255 := by simp [byteAt, h]
  rw [bitAt, hb]
  interval_cases i % 8 <;> rfl

/-- In the state of ones every button is held. -/
theorem testMask_ones (hv : p.Valid) {o : ℕ} {m c : UInt8} (hm : .button o m c ∈ (plan p).program) :
    testMask (List.replicate (plan p).storageSize 255) o m = true := by
  obtain ⟨-, i, hi, rfl, rfl⟩ := (plan_laid hv).button_mem hm
  have hi' : i < (plan p).buttonBits := hi
  rw [testMask_bit, bitAt_ones (by rw [plan_storageSize]; omega)]

/-- Every state comes back from its line exactly when no digit button is planned behind an axis. -/
theorem deserialize_serialize_forall_iff (hv : p.validate = .ok ()) (hc : p.controllers ≠ [])
    (ht : t.length = (plan p).storageSize) :
    (∀ s : Bytes, s.length = (plan p).storageSize →
        (plan p).deserialize t ((plan p).serialize s) =
          ((((plan p).serialize s).length : ℤ), (plan p).canonicalize s)) ↔
      ¬ ∃ a o m c, [.axis a, .button o m c] <:+: (plan p).program ∧ isDigitByte c = true := by
  have hvalid := (Port.validate_ok_iff p).1 hv
  constructor
  · rintro h ⟨a, o, m, c, hi, hd⟩
    have hlen : (List.replicate (plan p).storageSize (255 : UInt8)).length = (plan p).storageSize :=
      List.length_replicate
    have hs := h _ hlen
    rw [deserialize_serialize_iff_parseSteps hvalid hc hlen ht,
      parseSteps_serialize_iff hvalid] at hs
    exact hs ⟨a, o, m, c, hi, hd, testMask_ones hvalid (c := c) (hi.subset (by simp))⟩
  · intro h s hs
    rw [deserialize_serialize_iff_parseSteps hvalid hc hs ht, parseSteps_serialize_iff hvalid]
    rintro ⟨a, o, m, c, hi, hd, -⟩
    exact h ⟨a, o, m, c, hi, hd⟩

theorem digitPort_not_always_back : ¬ ∀ s : Bytes, s.length = (plan digitPort).storageSize →
    (plan digitPort).deserialize [0, 0, 0] ((plan digitPort).serialize s) =
      ((((plan digitPort).serialize s).length : ℤ), (plan digitPort).canonicalize s) := by
  intro h
  refine (deserialize_serialize_forall_iff rfl (by decide) rfl).1 h ⟨1, 0, 1, 55, ?_, rfl⟩
  exact ⟨[], [.button 0 2 65, .finish], by decide⟩

end Layout
end PortCodec
