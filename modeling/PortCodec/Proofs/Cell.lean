import Mathlib.Tactic
import PortCodec.Line.Codec

/-! The room of a stored control in a state: one bit or one word. What is put there is what is
found there, everything else stays, and a state is known from its bits and words. -/

namespace PortCodec

namespace Bytes

theorem toNatLE_littleEndian (k n : ℕ) : toNatLE (littleEndian k n) = n % 256 ^ k := by
  induction k generalizing n with
  | zero => simp [littleEndian, toNatLE, Nat.mod_one]
  | succ k ih =>
    have h : (UInt8.ofNat (n % 256)).toNat = n % 256 := by simp
    rw [littleEndian, toNatLE, ih, h, Nat.pow_succ, Nat.mul_comm (256 ^ k) 256, Nat.mod_mul]

theorem byteAt_modify (bs : Bytes) (i j : ℕ) (f : UInt8 → UInt8) :
    byteAt (bs.modify i f) j =
      if i = j ∧ j < bs.length then f (bs.byteAt j) else bs.byteAt j := by
  unfold byteAt
  rw [List.getD_eq_getElem?_getD, List.getD_eq_getElem?_getD, List.getElem?_modify]
  by_cases hj : j < bs.length
  · by_cases hi : i = j <;> simp [hj, hi]
  · simp [hj]

theorem byteAt_set (bs : Bytes) (i j : ℕ) (b : UInt8) :
    byteAt (bs.set i b) j = if i = j ∧ j < bs.length then b else bs.byteAt j := by
  unfold byteAt
  rw [List.getD_eq_getElem?_getD, List.getD_eq_getElem?_getD, List.getElem?_set]
  by_cases hi : i = j
  · subst hi
    by_cases hj : i < bs.length <;> simp [hj]
  · simp [hi]

theorem byteAt_zeros (n i : ℕ) : byteAt (List.replicate n 0) i = 0 := by
  unfold byteAt
  rw [List.getD_eq_getElem?_getD, List.getElem?_replicate]
  split_ifs <;> rfl

theorem ext_byteAt {bs cs : Bytes} (hl : bs.length = cs.length)
    (h : ∀ i < bs.length, bs.byteAt i = cs.byteAt i) : bs = cs := by
  apply List.ext_getElem hl
  intro i hi hi'
  have := h i hi
  simpa [byteAt, hi, hi'] using this

theorem setWord_length (bs : Bytes) (i : ℕ) (n : UInt16) : (bs.setWord i n).length = bs.length := by
  simp [setWord]

theorem byteAt_setWord_of_ne (bs : Bytes) {i j : ℕ} (n : UInt16) (h0 : i ≠ j) (h1 : i + 1 ≠ j) :
    (bs.setWord i n).byteAt j = bs.byteAt j := by
  rw [setWord, byteAt_set, if_neg (fun h => h1 h.1), byteAt_set, if_neg (fun h => h0 h.1)]

theorem join_halves (n : UInt16) :
    n.toUInt8.toUInt16 ||| ((n >>> 8).toUInt8.toUInt16 <<< 8) = n := by
  apply UInt16.toBitVec_inj.1
  ext i hi
  simp only [UInt16.toBitVec_or, UInt16.toBitVec_shiftLeft, UInt8.toBitVec_toUInt16,
    UInt16.toBitVec_toUInt8, UInt16.toBitVec_shiftRight]
  simp
  by_cases h8 : i < 8
  · simp [h8, BitVec.getLsbD_eq_getElem hi]
  · have hs : 8 + (i - 8) = i := by omega
    have hlt : i - 8 < 8 := by omega
    simp [h8, hs, hlt, BitVec.getLsbD_eq_getElem hi]

theorem join_inj {a b c d : UInt8}
    (h : a.toUInt16 ||| (b.toUInt16 <<< 8) = c.toUInt16 ||| (d.toUInt16 <<< 8)) :
    a = c ∧ b = d := by
  have hv := congrArg UInt16.toBitVec h
  constructor <;> apply UInt8.toBitVec_inj.1 <;> ext i hi
  · have hb := congrArg (fun v : BitVec 16 => v.getLsbD i) hv
    simp at hb
    grind
  · have hb := congrArg (fun v : BitVec 16 => v.getLsbD (i + 8)) hv
    simp at hb
    grind

theorem word_setWord (bs : Bytes) {i : ℕ} (n : UInt16) (h : i + 1 < bs.length) :
    (bs.setWord i n).word i = n := by
  have lo : (bs.setWord i n).byteAt i = n.toUInt8 := by
    rw [setWord, byteAt_set, if_neg (by omega), byteAt_set, if_pos ⟨rfl, by omega⟩]
  have hi : (bs.setWord i n).byteAt (i + 1) = (n >>> 8).toUInt8 := by
    rw [setWord, byteAt_set, if_pos ⟨rfl, by simpa using h⟩]
  rw [word, lo, hi, join_halves]

theorem word_congr {bs cs : Bytes} {i : ℕ} (h0 : bs.byteAt i = cs.byteAt i)
    (h1 : bs.byteAt (i + 1) = cs.byteAt (i + 1)) : bs.word i = cs.word i := by
  rw [word, word, h0, h1]

theorem word_inj {bs cs : Bytes} {i : ℕ} (h : bs.word i = cs.word i) :
    bs.byteAt i = cs.byteAt i ∧ bs.byteAt (i + 1) = cs.byteAt (i + 1) := join_inj h

/-- Bit `i` of a byte string, counted from the lowest bit of the first byte. -/
def bitAt (bs : Bytes) (i : ℕ) : Bool := (bs.byteAt (i / 8)).toNat.testBit (i % 8)

def bitMask (i : ℕ) : UInt8 := UInt8.ofNat (2 ^ (i % 8))

theorem bitMask_toNat (i : ℕ) : (bitMask i).toNat = 2 ^ (i % 8) := by
  have h : 2 ^ (i % 8) < 2 ^ 8 := Nat.pow_lt_pow_right (by norm_num) (Nat.mod_lt _ (by norm_num))
  simpa [bitMask] using h

theorem testBit_bitMask (i k : ℕ) : (bitMask i).toNat.testBit k = decide (i % 8 = k) := by
  rw [bitMask_toNat, Nat.testBit_two_pow]

theorem testBit_not_bitMask (i : ℕ) {k : ℕ} (hk : k < 8) :
    (~~~ bitMask i).toNat.testBit k = decide (i % 8 ≠ k) := by
  rw [UInt8.toNat_not, bitMask_toNat,
    show UInt8.size - 1 - 2 ^ (i % 8) = 2 ^ 8 - (2 ^ (i % 8) + 1) by simp [UInt8.size],
    Nat.testBit_two_pow_sub_succ (Nat.pow_lt_pow_right (by norm_num) (Nat.mod_lt _ (by norm_num))),
    Nat.testBit_two_pow]
  simp [hk]

theorem byte_ext {a b : UInt8} (h : ∀ k < 8, a.toNat.testBit k = b.toNat.testBit k) : a = b := by
  apply UInt8.toNat_inj.1
  apply Nat.eq_of_testBit_eq
  intro k
  by_cases hk : k < 8
  · exact h k hk
  · have hp : 2 ^ 8 ≤ 2 ^ k := Nat.pow_le_pow_right (by norm_num) (by omega)
    rw [Nat.testBit_lt_two_pow (lt_of_lt_of_le a.toNat_lt hp),
      Nat.testBit_lt_two_pow (lt_of_lt_of_le b.toNat_lt hp)]

theorem byteAt_eq_of_bitAt {bs cs : Bytes} {i : ℕ}
    (h : ∀ k < 8, bs.bitAt (8 * i + k) = cs.bitAt (8 * i + k)) : bs.byteAt i = cs.byteAt i := by
  apply byte_ext
  intro k hk
  have := h k hk
  rwa [bitAt, bitAt, show (8 * i + k) / 8 = i by omega, show (8 * i + k) % 8 = k by omega] at this

theorem bitAt_zeros (n i : ℕ) : bitAt (List.replicate n 0) i = false := by
  simp [bitAt, byteAt_zeros]

end Bytes

namespace Line
open Bytes

variable (s : Bytes)

@[simp] theorem setMask_length (o : ℕ) (m : UInt8) : (setMask s o m).length = s.length := by
  simp [setMask]

@[simp] theorem clearMask_length (o : ℕ) (m : UInt8) : (clearMask s o m).length = s.length := by
  simp [clearMask]

@[simp] theorem setAxis_length (o : ℕ) (v : Int16) : (setAxis s o v).length = s.length := by
  simp [setAxis, setWord_length]

theorem testMask_bit (i : ℕ) : testMask s (i / 8) (bitMask i) = s.bitAt i := by
  unfold testMask
  cases h : s.bitAt i
  · have h0 : s.byteAt (i / 8) &&& bitMask i = 0 := by
      apply byte_ext
      intro k _
      rw [UInt8.toNat_and, Nat.testBit_and, testBit_bitMask]
      by_cases hk : i % 8 = k
      · subst hk
        rw [bitAt] at h
        simp [h]
      · simp [hk]
    simp [h0]
  · have h1 : s.byteAt (i / 8) &&& bitMask i ≠ 0 := by
      intro h0
      have ht : (s.byteAt (i / 8) &&& bitMask i).toNat.testBit (i % 8) = true := by
        rw [UInt8.toNat_and, Nat.testBit_and, testBit_bitMask, ← bitAt, h]
        simp
      simp [h0] at ht
    simp [h1]

theorem bitAt_setMask {i : ℕ} (j : ℕ) (h : i / 8 < s.length) :
    bitAt (setMask s (i / 8) (bitMask i)) j = (decide (i = j) || s.bitAt j) := by
  rw [bitAt, setMask, byteAt_modify]
  by_cases hb : i / 8 = j / 8
  · rw [if_pos ⟨hb, hb ▸ h⟩, UInt8.toNat_or, Nat.testBit_or, testBit_bitMask, ← bitAt, Bool.or_comm]
    congr 2
    apply propext
    omega
  · rw [if_neg (fun hh => hb hh.1), ← bitAt]
    have hij : i ≠ j := fun hh => hb (by rw [hh])
    simp [hij]

theorem clearMask_of_clear {i : ℕ} (h : s.bitAt i = false) :
    clearMask s (i / 8) (bitMask i) = s := by
  apply ext_byteAt (by simp)
  intro j _
  rw [clearMask, byteAt_modify]
  split_ifs with hj
  · obtain ⟨rfl, -⟩ := hj
    apply byte_ext
    intro k hk
    rw [UInt8.toNat_and, Nat.testBit_and]
    by_cases hki : i % 8 = k
    · subst hki
      rw [bitAt] at h
      rw [h, Bool.false_and]
    · rw [testBit_not_bitMask i hk, decide_eq_true hki, Bool.and_true]
  · rfl

theorem axisAt_setAxis {o : ℕ} (v : Int16) (h : o + 1 < s.length) :
    axisAt (setAxis s o v) o = v := by
  rw [axisAt, setAxis, word_setWord s _ h]
  simp

theorem axisAt_congr {t : Bytes} {o : ℕ} (h0 : s.byteAt o = t.byteAt o)
    (h1 : s.byteAt (o + 1) = t.byteAt (o + 1)) : axisAt s o = axisAt t o := by
  rw [axisAt, axisAt, word_congr h0 h1]

theorem bytes_of_axisAt {t : Bytes} {o : ℕ} (h : axisAt s o = axisAt t o) :
    s.byteAt o = t.byteAt o ∧ s.byteAt (o + 1) = t.byteAt (o + 1) := by
  apply word_inj
  have := congrArg Int16.toUInt16 h
  simpa [axisAt] using this

theorem byteAt_setMask_of_ne {o j : ℕ} (m : UInt8) (h : o ≠ j) :
    (setMask s o m).byteAt j = s.byteAt j := by
  rw [setMask, byteAt_modify, if_neg (fun hh => h hh.1)]

theorem byteAt_setAxis_of_ne {o j : ℕ} (v : Int16) (h0 : o ≠ j) (h1 : o + 1 ≠ j) :
    (setAxis s o v).byteAt j = s.byteAt j := byteAt_setWord_of_ne s _ h0 h1

end Line
end PortCodec
