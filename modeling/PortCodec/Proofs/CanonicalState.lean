import PortCodec.Proofs.StepValue

/-! Storing values at the places of a program and finding them there. A canonical state, whose
unused bits are clear, is the only one with its values, and reading always ends in one. -/

namespace PortCodec

namespace Line
open Bytes Layout

/-- A state that holds the places up to `q`. -/
structure Room (base : ℕ) (q : Placed) (s : Bytes) : Prop where
  bits : q.bits ≤ 8 * base
  axes : base + 2 * q.axes ≤ s.length

variable {base : ℕ} {p q : Placed} {steps : List Step} {s t : Bytes}

theorem Room.storeStep (h : Room base q s) (v : Int16) (step : Step) :
    Room base q (storeStep s v step) := ⟨h.bits, by rw [storeStep_length]; exact h.axes⟩

theorem Room.byte_lt (h : Room base q s) {i : ℕ} (hi : i < q.bits) : i / 8 < s.length := by
  have h1 := h.bits
  have h2 := h.axes
  omega

theorem bitAt_setMask_of_ne {i j : ℕ} (h : i ≠ j) :
    bitAt (setMask s (i / 8) (bitMask i)) j = s.bitAt j := by
  by_cases hi : i / 8 < s.length
  · rw [bitAt_setMask s j hi]
    simp [h]
  · rw [setMask, List.modify_eq_self (by omega)]

theorem bitAt_setAxis_of_lt {i o : ℕ} (v : Int16) (h : i / 8 < o) :
    (setAxis s o v).bitAt i = s.bitAt i := by
  rw [bitAt, bitAt, byteAt_setAxis_of_ne s v (by omega) (by omega)]

theorem axisAt_setMask_of_lt {o o' : ℕ} (m : UInt8) (h : o < o') :
    axisAt (setMask s o m) o' = axisAt s o' :=
  axisAt_congr _ (byteAt_setMask_of_ne s m (by omega)) (byteAt_setMask_of_ne s m (by omega))

theorem axisAt_setAxis_of_ne {a b : ℕ} (v : Int16) (h : a ≠ b) :
    axisAt (setAxis s (base + 2 * a) v) (base + 2 * b) = axisAt s (base + 2 * b) :=
  axisAt_congr _ (byteAt_setAxis_of_ne s v (by omega) (by omega))
    (byteAt_setAxis_of_ne s v (by omega) (by omega))

theorem storeStep_mark {m : Step} (hm : m.isMark = true) (v : Int16) : storeStep s v m = s := by
  cases m <;> simp_all [Step.isMark, storeStep]

theorem stepValue_mark {m : Step} (hm : m.isMark = true) : stepValue s m = 0 := by
  cases m <;> simp_all [Step.isMark, stepValue]

theorem fits_mark {m : Step} (hm : m.isMark = true) {v : Int16} (h : Fits m v) : v = 0 := by
  cases m <;> simp_all [Step.isMark, Fits]

/-- Bits outside the places of the steps stay. -/
theorem bitAt_storeSteps (h : Laid base p steps q) (hr : Room base q s) (vs : List Int16) {i : ℕ}
    (hi : i < 8 * base) (ho : i < p.bits ∨ q.bits ≤ i) :
    (storeSteps s steps vs).bitAt i = s.bitAt i := by
  induction h generalizing s vs with
  | nil _ => rfl
  | @button b a char steps q _ rest ih =>
    cases vs with
    | nil => rfl
    | cons v vs =>
      have hle : b + 1 ≤ q.bits := rest.le.1
      have ho' : i < b ∨ q.bits ≤ i := ho
      rw [storeSteps, ih (hr.storeStep v _) vs (by show i < b + 1 ∨ q.bits ≤ i; omega), storeStep]
      split_ifs
      · rfl
      · exact bitAt_setMask_of_ne (by omega)
  | axis rest ih =>
    cases vs with
    | nil => rfl
    | cons v vs =>
      rw [storeSteps, ih (hr.storeStep v _) vs ho]
      exact bitAt_setAxis_of_lt v (by omega)
  | mark hm _ ih =>
    cases vs with
    | nil => rfl
    | cons v vs => rw [storeSteps, ih (hr.storeStep v _) vs ho, storeStep_mark hm]

/-- Words outside the places of the steps stay. -/
theorem axisAt_storeSteps (h : Laid base p steps q) (hr : Room base q s) (vs : List Int16) {j : ℕ}
    (ho : j < p.axes ∨ q.axes ≤ j) :
    axisAt (storeSteps s steps vs) (base + 2 * j) = axisAt s (base + 2 * j) := by
  induction h generalizing s vs with
  | nil _ => rfl
  | @button b a char steps q _ rest ih =>
    cases vs with
    | nil => rfl
    | cons v vs =>
      have hle : b + 1 ≤ q.bits := rest.le.1
      have hb := hr.bits
      rw [storeSteps, ih (hr.storeStep v _) vs ho, storeStep]
      split_ifs
      · rfl
      · exact axisAt_setMask_of_lt _ (by omega)
  | @axis b a steps q rest ih =>
    cases vs with
    | nil => rfl
    | cons v vs =>
      have hle : a + 1 ≤ q.axes := rest.le.2
      have ho' : j < a ∨ q.axes ≤ j := ho
      rw [storeSteps, ih (hr.storeStep v _) vs (by show j < a + 1 ∨ q.axes ≤ j; omega)]
      exact axisAt_setAxis_of_ne v (by omega)
  | mark hm _ ih =>
    cases vs with
    | nil => rfl
    | cons v vs => rw [storeSteps, ih (hr.storeStep v _) vs ho, storeStep_mark hm]

theorem stepValue_button (i : ℕ) (char : UInt8) :
    stepValue s (.button (i / 8) (bitMask i) char) = if s.bitAt i then 1 else 0 := by
  rw [stepValue, testMask_bit]

theorem bitAt_storeStep_button {i : ℕ} (char : UInt8) (j : ℕ) {v : Int16} (hi : i / 8 < s.length) :
    (storeStep s v (.button (i / 8) (bitMask i) char)).bitAt j =
      ((decide (i = j) && decide (v ≠ 0)) || s.bitAt j) := by
  rw [storeStep]
  split_ifs with hv
  · simp [hv]
  · rw [bitAt_setMask s j hi]
    simp [hv]

/-- Values that were stored over clear bits are found again. -/
theorem map_stepValue_storeSteps (h : Laid base p steps q) (hr : Room base q s)
    (hz : ∀ i, p.bits ≤ i → i < q.bits → s.bitAt i = false) {vs : List Int16}
    (hf : List.Forall₂ Fits steps vs) : steps.map (stepValue (storeSteps s steps vs)) = vs := by
  induction h generalizing s vs with
  | nil _ =>
    cases hf
    rfl
  | @button b a char steps q _ rest ih =>
    obtain _ | ⟨hv, hf⟩ := hf
    rename_i v vs
    have hle : b + 1 ≤ q.bits := rest.le.1
    have hb := hr.byte_lt (i := b) (by omega)
    have hbits := hr.bits
    have hr' := hr.storeStep v (.button (b / 8) (bitMask b) char)
    have hz' : ∀ i, b + 1 ≤ i → i < q.bits →
        (storeStep s v (.button (b / 8) (bitMask b) char)).bitAt i = false := by
      intro i h1 h2
      have hne : b ≠ i := by omega
      rw [bitAt_storeStep_button char i hb, hz i (by show b ≤ i; omega) h2]
      simp [hne]
    rw [storeSteps, List.map_cons, ih hr' hz' hf, stepValue_button,
      bitAt_storeSteps rest hr' vs (by omega) (Or.inl (Nat.lt_succ_self b)),
      bitAt_storeStep_button char b hb, hz b le_rfl hle]
    rcases hv with rfl | rfl <;> simp
  | @axis b a steps q rest ih =>
    obtain _ | ⟨-, hf⟩ := hf
    rename_i v vs
    have hle : a + 1 ≤ q.axes := rest.le.2
    have hlen := hr.axes
    have hbits := hr.bits
    have hr' := hr.storeStep v (.axis (base + 2 * a))
    have hz' : ∀ i, b ≤ i → i < q.bits →
        (storeStep s v (.axis (base + 2 * a))).bitAt i = false := by
      intro i h1 h2
      rw [← hz i h1 h2]
      exact bitAt_setAxis_of_lt v (by omega)
    rw [storeSteps, List.map_cons, ih hr' hz' hf, stepValue,
      axisAt_storeSteps rest hr' vs (Or.inl (Nat.lt_succ_self a))]
    exact congrArg (· :: vs) (axisAt_setAxis s v (by omega))
  | mark hm _ ih =>
    obtain _ | ⟨hv, hf⟩ := hf
    rw [storeSteps, storeStep_mark hm, List.map_cons, ih hr hz hf, stepValue_mark hm,
      fits_mark hm hv]

/-- Steps have the same values in two states that agree at their places. -/
theorem map_stepValue_eq_iff (h : Laid base p steps q) :
    steps.map (stepValue s) = steps.map (stepValue t) ↔
      (∀ i, p.bits ≤ i → i < q.bits → s.bitAt i = t.bitAt i) ∧
        ∀ j, p.axes ≤ j → j < q.axes → axisAt s (base + 2 * j) = axisAt t (base + 2 * j) := by
  induction h with
  | nil p => simp; exact ⟨fun i h1 h2 => by omega, fun j h1 h2 => by omega⟩
  | @button b a char steps q _ rest ih =>
    have hle : b + 1 ≤ q.bits := rest.le.1
    have hv : stepValue s (.button (b / 8) (bitMask b) char) =
        stepValue t (.button (b / 8) (bitMask b) char) ↔ s.bitAt b = t.bitAt b := by
      rw [stepValue_button, stepValue_button]
      cases s.bitAt b <;> cases t.bitAt b <;> simp
    rw [List.map_cons, List.map_cons, List.cons.injEq, hv, ih]
    constructor
    · rintro ⟨h0, hb, ha⟩
      refine ⟨fun i h1 h2 => ?_, ha⟩
      rcases Nat.eq_or_lt_of_le h1 with rfl | h1
      · exact h0
      · exact hb i h1 h2
    · rintro ⟨hb, ha⟩
      exact ⟨hb b le_rfl hle, fun i h1 h2 => hb i (Nat.le_of_lt h1) h2, ha⟩
  | @axis b a steps q rest ih =>
    have hle : a + 1 ≤ q.axes := rest.le.2
    rw [List.map_cons, List.map_cons, List.cons.injEq, stepValue, stepValue, ih]
    constructor
    · rintro ⟨h0, hb, ha⟩
      refine ⟨hb, fun j h1 h2 => ?_⟩
      rcases Nat.eq_or_lt_of_le h1 with rfl | h1
      · exact h0
      · exact ha j h1 h2
    · rintro ⟨hb, ha⟩
      exact ⟨ha a le_rfl hle, hb, fun j h1 h2 => ha j (Nat.le_of_lt h1) h2⟩
  | mark hm _ ih =>
    rw [List.map_cons, List.map_cons, List.cons.injEq, stepValue_mark hm, stepValue_mark hm, ih]
    simp

theorem setMask_append {o : ℕ} (m : UInt8) (h : o < s.length) :
    setMask (s ++ t) o m = setMask s o m ++ t := by
  unfold setMask
  rw [List.modify_eq_set, List.modify_eq_set, List.set_append_left _ _ h,
    List.getElem?_append_left h]

theorem setAxis_append {o : ℕ} (v : Int16) (h : o + 1 < s.length) :
    setAxis (s ++ t) o v = setAxis s o v ++ t := by
  unfold setAxis setWord
  rw [List.set_append_left _ _ (by omega), List.set_append_left _ _ (by simpa using h)]

/-- What lies behind the room of the steps is left alone. -/
theorem storeSteps_append (h : Laid base p steps q) (hr : Room base q s) (vs : List Int16) :
    storeSteps (s ++ t) steps vs = storeSteps s steps vs ++ t := by
  induction h generalizing s vs with
  | nil _ => rfl
  | @button b a char steps q _ rest ih =>
    cases vs with
    | nil => rfl
    | cons v vs =>
      have hb := hr.byte_lt (i := b) (rest.le.1)
      rw [storeSteps, storeSteps, ← ih (hr.storeStep v _) vs]
      unfold storeStep
      dsimp only
      split_ifs
      · rfl
      · rw [setMask_append _ hb]
  | @axis b a steps q rest ih =>
    cases vs with
    | nil => rfl
    | cons v vs =>
      have hle : a + 1 ≤ q.axes := rest.le.2
      have hlen := hr.axes
      rw [storeSteps, storeSteps, ← ih (hr.storeStep v _) vs]
      unfold storeStep
      dsimp only
      rw [setAxis_append v (by omega)]
  | mark hm _ ih =>
    cases vs with
    | nil => rfl
    | cons v vs =>
      rw [storeSteps, storeSteps, ← ih (hr.storeStep v _) vs, storeStep_mark hm, storeStep_mark hm]

end Line

namespace Layout
open Bytes Line

/-- A state of the layout's size whose unused button bits are clear. -/
structure Canonical (l : Layout) (s : Bytes) : Prop where
  length : s.length = l.storageSize
  clear : ∀ i, l.buttonBits ≤ i → i < 8 * ((l.buttonBits + 7) / 8) → s.bitAt i = false

variable {p : Port} {s t : Bytes}

theorem plan_storageSize (p : Port) :
    (plan p).storageSize = ((plan p).buttonBits + 7) / 8 + 2 * (plan p).axes := rfl

theorem plan_room (h : s.length = (plan p).storageSize) :
    Room (((plan p).buttonBits + 7) / 8) ⟨(plan p).buttonBits, (plan p).axes⟩ s where
  bits := by show (plan p).buttonBits ≤ _; omega
  axes := by rw [h, plan_storageSize]

theorem canonicalize_length (l : Layout) (s : Bytes) : (l.canonicalize s).length = s.length := by
  unfold canonicalize
  split_ifs <;> simp

theorem byteAt_canonicalize_of_ne (l : Layout) (s : Bytes) {j : ℕ} (h : j ≠ l.buttonBits / 8) :
    (l.canonicalize s).byteAt j = s.byteAt j := by
  unfold canonicalize
  split_ifs
  · rfl
  · rw [byteAt_modify, if_neg (fun hh => h hh.1.symm)]

theorem bitAt_canonicalize (l : Layout) (s : Bytes) {i : ℕ}
    (hi : i < 8 * ((l.buttonBits + 7) / 8)) :
    (l.canonicalize s).bitAt i = (decide (i < l.buttonBits) && s.bitAt i) := by
  by_cases hj : i / 8 = l.buttonBits / 8
  · have hrem : l.buttonBits % 8 ≠ 0 := by omega
    have hlt : l.buttonBits % 8 < 8 := Nat.mod_lt _ (by norm_num)
    have hm : (UInt8.ofNat (2 ^ (l.buttonBits % 8) - 1)).toNat = 2 ^ (l.buttonBits % 8) - 1 := by
      have : 2 ^ (l.buttonBits % 8) < 2 ^ 8 := Nat.pow_lt_pow_right (by norm_num) hlt
      simp only [UInt8.toNat_ofNat']
      omega
    have hd : decide (i % 8 < l.buttonBits % 8) = decide (i < l.buttonBits) := by
      congr 1
      apply propext
      omega
    unfold canonicalize
    rw [if_neg hrem, bitAt, byteAt_modify]
    split_ifs with hin
    · rw [UInt8.toNat_and, Nat.pow_eq, hm, Nat.testBit_and, Nat.testBit_two_pow_sub_one, hd,
        Bool.and_comm, ← bitAt]
    · -- past the end of the state every bit is clear
      have hout : s.byteAt (i / 8) = 0 := by
        have : s.length ≤ i / 8 := by
          by_contra hc
          exact hin ⟨hj.symm, by omega⟩
        simp [byteAt, this]
      simp [bitAt, hout]
  · have hlt : i < l.buttonBits := by omega
    rw [bitAt, byteAt_canonicalize_of_ne l s hj, ← bitAt]
    simp [hlt]

theorem canonical_canonicalize {l : Layout} (h : s.length = l.storageSize) :
    l.Canonical (l.canonicalize s) where
  length := by rw [canonicalize_length, h]
  clear := by
    intro i h1 h2
    rw [bitAt_canonicalize l s h2]
    simp [h1]

theorem map_stepValue_canonicalize (hv : p.Valid) (s : Bytes) :
    (plan p).program.map (stepValue ((plan p).canonicalize s)) =
      (plan p).program.map (stepValue s) := by
  rw [map_stepValue_eq_iff (plan_laid hv)]
  constructor
  · intro i _ hi
    have hi' : i < (plan p).buttonBits := hi
    rw [bitAt_canonicalize _ s (by omega)]
    simp [hi']
  · intro j _ _
    by_cases hb : (plan p).buttonBits % 8 = 0
    · rw [canonicalize, if_pos hb]
    · apply axisAt_congr <;> exact byteAt_canonicalize_of_ne _ s (by omega)

/-- A canonical state is known from the values of the program's steps. -/
theorem canonical_ext (hv : p.Valid) (hs : (plan p).Canonical s) (ht : (plan p).Canonical t)
    (h : (plan p).program.map (stepValue s) = (plan p).program.map (stepValue t)) : s = t := by
  obtain ⟨hbit, haxis⟩ := (map_stepValue_eq_iff (plan_laid hv)).1 h
  apply ext_byteAt (by rw [hs.length, ht.length])
  intro i hi
  rw [hs.length, plan_storageSize] at hi
  by_cases hb : i < ((plan p).buttonBits + 7) / 8
  · apply byteAt_eq_of_bitAt
    intro k hk
    by_cases hu : 8 * i + k < (plan p).buttonBits
    · exact hbit _ (Nat.zero_le _) hu
    · rw [hs.clear _ (by omega) (by omega), ht.clear _ (by omega) (by omega)]
  · -- the byte is the low or the high half of a word
    obtain ⟨j, hj⟩ : ∃ j, i = ((plan p).buttonBits + 7) / 8 + 2 * j ∨
        i = ((plan p).buttonBits + 7) / 8 + 2 * j + 1 :=
      ⟨(i - ((plan p).buttonBits + 7) / 8) / 2, by omega⟩
    have hw := bytes_of_axisAt s (haxis j (Nat.zero_le _) (by show j < (plan p).axes; omega))
    rcases hj with rfl | rfl
    · exact hw.1
    · exact hw.2

theorem newState_length (l : Layout) : l.newState.length = l.storageSize := by simp [newState]

theorem canonical_storeSteps (hv : p.Valid) (vs : List Int16) :
    (plan p).Canonical (storeSteps (plan p).newState (plan p).program vs) where
  length := by rw [storeSteps_length, newState_length]
  clear := by
    intro i h1 h2
    rw [bitAt_storeSteps (plan_laid hv) (plan_room (newState_length _)) vs h2 (Or.inr h1)]
    exact bitAt_zeros _ i

/-- Storing the values of a state over clear bytes rebuilds it, with its unused bits cleared. -/
theorem storeSteps_newState (hv : p.Valid) (hs : s.length = (plan p).storageSize) :
    storeSteps (plan p).newState (plan p).program ((plan p).program.map (stepValue s)) =
      (plan p).canonicalize s := by
  apply canonical_ext hv (canonical_storeSteps hv _) (canonical_canonicalize hs)
  rw [map_stepValue_storeSteps (plan_laid hv) (plan_room (newState_length _))
    (fun i _ _ => bitAt_zeros _ i) (map_stepValue_fits s _), map_stepValue_canonicalize hv]

theorem map_stepValue_newState (hv : p.Valid) (text : Bytes) :
    (plan p).program.map (stepValue
        (storeSteps (plan p).newState (plan p).program (parseSteps text (plan p).program).1)) =
      (parseSteps text (plan p).program).1 :=
  map_stepValue_storeSteps (plan_laid hv) (plan_room (newState_length _))
    (fun i _ _ => bitAt_zeros _ i) (parseSteps_fits text _)

theorem clearFirst_eq {l : Layout} (h : l.storageSize ≤ s.length) :
    clearFirst l.storageSize s = l.newState ++ s.drop l.storageSize := by
  rw [clearFirst, Nat.min_eq_left h]
  rfl

/-- A line is read into a canonical state in front of what the buffer held behind it. -/
theorem deserialize_eq (hv : p.Valid) (hc : p.controllers ≠ []) (text : Bytes)
    (hs : (plan p).storageSize ≤ s.length) :
    (plan p).deserialize s text =
      ((text.length : ℤ) - (parseSteps text (plan p).program).2.length,
        storeSteps (plan p).newState (plan p).program (parseSteps text (plan p).program).1 ++
          s.drop (plan p).storageSize) := by
  unfold deserialize
  rw [clearFirst_eq hs, readSteps_eq,
    storeSteps_append (plan_laid hv) (plan_room (newState_length _))]
  simp [finishEmpty_notMem hc]

end Layout
end PortCodec
