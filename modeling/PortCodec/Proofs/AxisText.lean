import Mathlib.Data.List.TakeWhile
import Mathlib.Tactic
import PortCodec.Line.Axis

/-! The text of an axis. Reading takes blanks, a sign and all digits, and its value is the decimal
modulo 2 ^ 16; what was written is read back unless a digit follows. -/

namespace PortCodec

namespace Decimal

def isDigitByte (b : UInt8) : Bool := 48 ≤ b && b ≤ 57

/-- Digits added to a number, most significant first. -/
def addDigits (n : ℕ) (ds : Bytes) : ℕ := ds.foldl (fun m b => m * 10 + (b.toNat - 48)) n

theorem isDigitByte_iff (b : UInt8) : isDigitByte b = true ↔ 48 ≤ b.toNat ∧ b.toNat ≤ 57 := by
  simp [isDigitByte, UInt8.le_iff_toNat_le]

theorem sub_le_nine_iff (b : UInt8) : b - 48 ≤ 9 ↔ isDigitByte b = true := by
  rw [isDigitByte_iff, UInt8.le_iff_toNat_le, UInt8.toNat_sub]
  have := b.toNat_lt
  simp
  omega

theorem digit_toNat (n : ℕ) : (digit n).toNat = 48 + n % 10 := by
  simp [digit]
  omega

theorem isDigitByte_digit (n : ℕ) : isDigitByte (digit n) = true := by
  rw [isDigitByte_iff, digit_toNat]
  omega

theorem isDigitByte_of_mem_natural (n : ℕ) : ∀ b ∈ natural n, isDigitByte b = true := by
  fun_induction natural n with
  | case1 n h => simp [isDigitByte_digit]
  | case2 n h ih =>
    intro b hb
    rcases List.mem_append.1 hb with hb | hb
    · exact ih b hb
    · rw [List.mem_singleton.1 hb]
      exact isDigitByte_digit n

theorem addDigits_append (n : ℕ) (ds es : Bytes) :
    addDigits n (ds ++ es) = addDigits (addDigits n ds) es := List.foldl_append

theorem addDigits_natural (n : ℕ) : addDigits 0 (natural n) = n := by
  fun_induction natural n with
  | case1 n h => simp [addDigits, digit_toNat]; omega
  | case2 n h ih =>
    rw [addDigits_append, ih]
    simp [addDigits, digit_toNat]
    omega

theorem natural_ne_nil (n : ℕ) : natural n ≠ [] := by
  rw [natural]
  split_ifs <;> simp

theorem signed_eq (v : ℤ) : signed v = (if v < 0 then [45] else []) ++ natural v.natAbs := by
  cases v with
  | ofNat n => simp [signed]
  | negSucc n => simp [signed]

/-- A number below a power of ten has no more digits than the power. -/
theorem length_natural_le {k n : ℕ} (hn : n < 10 ^ (k + 1)) : (natural n).length ≤ k + 1 := by
  induction k generalizing n with
  | zero => rw [natural, if_pos (by simpa using hn)]; simp
  | succ k ih =>
    rw [natural]
    split_ifs
    · simp
    · have := ih (n := n / 10) (by rw [pow_succ] at hn; omega)
      simpa using this

theorem takeSign_cons {b : UInt8} (hm : b ≠ 45) (hp : b ≠ 43) (rest : Bytes) :
    takeSign (b :: rest) = (false, b :: rest) := by
  unfold takeSign
  split <;> simp_all

/-- A sign is taken, and nothing that is none. -/
theorem takeSign_append {sign ds : Bytes} (hs : sign = [] ∨ sign = [45] ∨ sign = [43])
    (hd : sign = [] → ∀ b ∈ ds.head?, b ≠ 45 ∧ b ≠ 43) :
    takeSign (sign ++ ds) = (decide (sign = [45]), ds) := by
  rcases hs with rfl | rfl | rfl
  · cases ds with
    | nil => rfl
    | cons b ds =>
      obtain ⟨h45, h43⟩ := hd rfl b rfl
      exact takeSign_cons h45 h43 ds
  · rfl
  · rfl

theorem takeSign_suffix (text : Bytes) : (takeSign text).2 <:+ text := by
  unfold takeSign
  split
  · exact List.suffix_cons _ _
  · exact List.suffix_cons _ _
  · exact List.suffix_refl _

end Decimal

namespace Line
open Decimal

def isBlank (b : UInt8) : Bool := b = 32 || b = 9

theorem skipBlanks_eq (text : Bytes) : skipBlanks text = text.dropWhile isBlank := by
  induction text with
  | nil => rfl
  | cons b rest ih =>
    rw [skipBlanks, List.dropWhile_cons]
    by_cases h : b = 32 ∨ b = 9
    · simp [h, ih, isBlank]
    · simp [h, isBlank]

theorem addDigit_int32 (n : ℕ) {b : UInt8} (hb : isDigitByte b = true) :
    Int32.ofInt n * 10 + (b - 48).toUInt32.toInt32 =
      Int32.ofInt ((n * 10 + (b.toNat - 48) : ℕ) : ℤ) := by
  obtain ⟨h1, h2⟩ := (isDigitByte_iff b).1 hb
  have hsub : (b - 48).toNat = b.toNat - 48 := by
    rw [UInt8.toNat_sub]
    simp
    omega
  have hd : (b - 48).toUInt32.toInt32 = Int32.ofInt ((b.toNat - 48 : ℕ) : ℤ) := by
    rw [← hsub]
    generalize b - 48 = d
    apply Int32.toBitVec_inj.1
    apply BitVec.eq_of_toNat_eq
    simp
  rw [hd, Nat.cast_add, Int32.ofInt_add, Nat.cast_mul, Int32.ofInt_mul]
  rfl

theorem takeDigits_eq (n : ℕ) (text : Bytes) :
    takeDigits (Int32.ofInt n) text =
      (Int32.ofInt (addDigits n (text.takeWhile isDigitByte)), text.dropWhile isDigitByte) := by
  induction text generalizing n with
  | nil => rfl
  | cons b rest ih =>
    rw [takeDigits, List.takeWhile_cons, List.dropWhile_cons]
    by_cases hb : isDigitByte b = true
    · rw [if_pos ((sub_le_nine_iff b).2 hb), addDigit_int32 n hb, ih, if_pos hb, if_pos hb]
      rfl
    · rw [if_neg (fun h => hb ((sub_le_nine_iff b).1 h)), if_neg hb, if_neg hb]
      rfl

/-- An axis text by its parts: blanks, at most one sign, and the longest run of digits. -/
def axisOf (text : Bytes) : Int16 × Bytes :=
  let signed := takeSign (text.dropWhile isBlank)
  let n : ℤ := addDigits 0 (signed.2.takeWhile isDigitByte)
  (Int16.ofInt (if signed.1 then -n else n), signed.2.dropWhile isDigitByte)

/-- The wrapping accumulator loses nothing that the 16 bits of the value keep. -/
theorem readAxis_eq (text : Bytes) : readAxis text = axisOf text := by
  have h0 : (0 : Int32) = Int32.ofInt ((0 : ℕ) : ℤ) := rfl
  unfold readAxis axisOf
  rw [skipBlanks_eq, h0]
  obtain ⟨negative, digits⟩ := takeSign (text.dropWhile isBlank)
  dsimp only
  rw [takeDigits_eq]
  dsimp only
  split_ifs
  · rw [← Int32.ofInt_neg, Int32.toInt16_ofInt]
  · rw [Int32.toInt16_ofInt]

theorem isBlank_of_digit {b : UInt8} (hb : isDigitByte b = true) : isBlank b = false := by
  obtain ⟨h1, h2⟩ := (isDigitByte_iff b).1 hb
  have h32 : b ≠ 32 := by rintro rfl; simp at h1
  have h9 : b ≠ 9 := by rintro rfl; simp at h1
  simp [isBlank, h32, h9]

/-- Digits of a numeral and the digits that follow it are one run. -/
theorem run_append {ds : Bytes} (hd : ∀ b ∈ ds, isDigitByte b = true) (rest : Bytes) :
    (ds ++ rest).takeWhile isDigitByte = ds ++ rest.takeWhile isDigitByte ∧
      (ds ++ rest).dropWhile isDigitByte = rest.dropWhile isDigitByte :=
  ⟨List.takeWhile_append_of_pos hd, List.dropWhile_append_of_pos hd⟩

theorem axisOf_natural (n : ℕ) (rest : Bytes) :
    axisOf (32 :: (natural n ++ rest)) =
      (Int16.ofInt (addDigits n (rest.takeWhile isDigitByte)), rest.dropWhile isDigitByte) := by
  obtain ⟨d, ds, hn⟩ := List.exists_cons_of_ne_nil (natural_ne_nil n)
  have hd : isDigitByte d = true := isDigitByte_of_mem_natural n d (by simp [hn])
  have hrun := run_append (isDigitByte_of_mem_natural n) rest
  have hskip : (32 :: (natural n ++ rest)).dropWhile isBlank = natural n ++ rest := by
    rw [List.dropWhile_cons_of_pos (by rfl), hn, List.cons_append,
      List.dropWhile_cons_of_neg (by simp [isBlank_of_digit hd])]
  have hsign : takeSign (natural n ++ rest) = (false, natural n ++ rest) := by
    rw [hn, List.cons_append]
    exact takeSign_cons (by rintro rfl; simp [isDigitByte] at hd)
      (by rintro rfl; simp [isDigitByte] at hd) _
  rw [axisOf, hskip, hsign]
  simp only [hrun, addDigits_append, addDigits_natural, Bool.false_eq_true, if_false]

theorem axisOf_minus (n : ℕ) (rest : Bytes) :
    axisOf (32 :: 45 :: (natural n ++ rest)) =
      (Int16.ofInt (-(addDigits n (rest.takeWhile isDigitByte) : ℤ)),
        rest.dropWhile isDigitByte) := by
  have hrun := run_append (isDigitByte_of_mem_natural n) rest
  have hskip : (32 :: 45 :: (natural n ++ rest)).dropWhile isBlank =
      45 :: (natural n ++ rest) := rfl
  rw [axisOf, hskip, takeSign]
  simp only [hrun, addDigits_append, addDigits_natural, if_true]

theorem readAxis_axisText_snd (v : Int16) (rest : Bytes) :
    (readAxis (axisText v ++ rest)).2 = rest.dropWhile isDigitByte := by
  rw [readAxis_eq, axisText]
  cases v.toInt with
  | ofNat n => rw [signed, List.cons_append, axisOf_natural]
  | negSucc n => rw [signed, List.cons_append, List.cons_append, axisOf_minus]

/-- A written value is read back where no digit follows. -/
theorem readAxis_axisText (v : Int16) {rest : Bytes} (h : rest.takeWhile isDigitByte = []) :
    readAxis (axisText v ++ rest) = (v, rest) := by
  have hrest : rest.dropWhile isDigitByte = rest :=
    List.dropWhile_eq_self_iff.2 (List.takeWhile_eq_nil_iff.1 h)
  apply Prod.ext
  · rw [readAxis_eq, axisText]
    cases hv : v.toInt with
    | ofNat n =>
      rw [signed, List.cons_append, axisOf_natural, h, ← Int16.ofInt_toInt v, hv]
      rfl
    | negSucc n =>
      rw [signed, List.cons_append, List.cons_append, axisOf_minus, h, ← Int16.ofInt_toInt v, hv]
      rfl
  · rw [readAxis_axisText_snd, hrest]

theorem space_notMem_signed (n : ℤ) : (32 : UInt8) ∉ signed n := by
  intro h
  cases n with
  | ofNat n => simpa [isDigitByte] using isDigitByte_of_mem_natural n _ h
  | negSucc n =>
    rcases List.mem_cons.1 h with h | h
    · simp at h
    · simpa [isDigitByte] using isDigitByte_of_mem_natural _ _ h

end Line
end PortCodec
