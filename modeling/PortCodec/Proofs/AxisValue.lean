import Mathlib.Data.Int.ModEq
import PortCodec.Proofs.SpelledValues

/-! The value of an axis text. Every text begins with some blanks, at most one sign and some digits,
and reading takes just these. The value is that of the signed decimal modulo 2 ^ 16, however many
digits there are. -/

namespace PortCodec

namespace Decimal

/-- The number that decimal digits stand for, the last of them counting ones. -/
def runValue (ds : Bytes) : ℕ := Nat.ofDigits 10 (ds.reverse.map fun b => b.toNat - 48)

theorem runValue_concat (ds : Bytes) (b : UInt8) :
    runValue (ds ++ [b]) = runValue ds * 10 + (b.toNat - 48) := by
  unfold runValue
  rw [List.reverse_append, List.reverse_singleton, List.singleton_append, List.map_cons,
    Nat.ofDigits_cons]
  omega

/-- Adding up digits from the first to the last gives their number. -/
theorem addDigits_eq_runValue (ds : Bytes) : addDigits 0 ds = runValue ds := by
  induction ds using List.reverseRecOn with
  | nil => rfl
  | append_singleton ds b ih =>
    rw [addDigits_append, ih, runValue_concat]
    rfl

end Decimal

namespace Line

open Decimal

/-- A text that begins with blanks, at most one sign and digits. There are no more digits, and where
there are no digits and no sign there are no more blanks and no sign either. -/
structure Stretch (text blanks sign digits rest : Bytes) : Prop where
  text_eq : text = blanks ++ (sign ++ (digits ++ rest))
  blank : ∀ b ∈ blanks, b = 32 ∨ b = 9
  oneSign : sign = [] ∨ sign = [45] ∨ sign = [43]
  digit : ∀ b ∈ digits, 48 ≤ b ∧ b ≤ 57
  noDigit : ∀ b ∈ rest.head?, ¬ (48 ≤ b ∧ b ≤ 57)
  nothing : sign = [] → digits = [] → ∀ b ∈ rest.head?, b ≠ 32 ∧ b ≠ 9 ∧ b ≠ 45 ∧ b ≠ 43

def signedValue (sign digits : Bytes) : ℤ :=
  if sign = [45] then -runValue digits else runValue digits

/-- Where the first byte is not of a kind, there is nothing to take or to drop. -/
theorem while_of_head {q : UInt8 → Bool} {text : Bytes} (h : ∀ b ∈ text.head?, q b = false) :
    text.takeWhile q = [] ∧ text.dropWhile q = text := by
  cases text with
  | nil => exact ⟨rfl, rfl⟩
  | cons b rest => simp [h b rfl]

theorem isDigitByte_eq_false_iff {b : UInt8} : isDigitByte b = false ↔ ¬ (48 ≤ b ∧ b ≤ 57) := by
  simp [isDigitByte]

section Stretches

variable {text blanks sign digits rest : Bytes}

theorem Stretch.isDigit (h : Stretch text blanks sign digits rest) :
    ∀ b ∈ digits, isDigitByte b = true := by
  intro b hb
  simpa [isDigitByte] using h.digit b hb

/-- Without a sign, neither a blank nor a sign is behind the blanks. -/
theorem Stretch.head (h : Stretch text blanks [] digits rest) :
    ∀ b ∈ (digits ++ rest).head?, isBlank b = false ∧ b ≠ 45 ∧ b ≠ 43 := by
  intro b hb
  cases digits with
  | nil =>
    obtain ⟨h32, h9, h45, h43⟩ := h.nothing rfl rfl b hb
    exact ⟨by simp [isBlank, h32, h9], h45, h43⟩
  | cons d ds =>
    obtain rfl : d = b := Option.some.inj hb
    have hdigit := h.isDigit d (List.mem_cons_self ..)
    refine ⟨isBlank_of_digit hdigit, ?_, ?_⟩ <;> rintro rfl <;> cases hdigit

theorem Stretch.dropWhile_blanks (h : Stretch text blanks sign digits rest) :
    text.dropWhile isBlank = sign ++ (digits ++ rest) := by
  have hblanks : ∀ b ∈ blanks, isBlank b = true := by
    intro b hb
    simpa [isBlank] using h.blank b hb
  rw [h.text_eq, List.dropWhile_append_of_pos hblanks]
  rcases h.oneSign with rfl | rfl | rfl
  · exact (while_of_head fun b hb => (h.head b hb).1).2
  · rfl
  · rfl

theorem Stretch.takeSign_eq (h : Stretch text blanks sign digits rest) :
    takeSign (sign ++ (digits ++ rest)) = (decide (sign = [45]), digits ++ rest) := by
  refine takeSign_append h.oneSign ?_
  rintro rfl b hb
  exact (h.head b hb).2

/-- Reading takes a stretch to its end and keeps 16 bits of its number. -/
theorem Stretch.readAxis_eq (h : Stretch text blanks sign digits rest) :
    readAxis text = (Int16.ofInt (signedValue sign digits), rest) := by
  have hrun := run_append h.isDigit rest
  have hrest := while_of_head fun b hb => isDigitByte_eq_false_iff.2 (h.noDigit b hb)
  rw [Line.readAxis_eq, axisOf, h.dropWhile_blanks, h.takeSign_eq]
  dsimp only
  rw [hrun.1, hrun.2, hrest.1, hrest.2, List.append_nil, addDigits_eq_runValue]
  simp only [signedValue, decide_eq_true_eq]

theorem exists_sign (text : Bytes) :
    ∃ sign rest, text = sign ++ rest ∧ (sign = [] ∨ sign = [45] ∨ sign = [43]) ∧
    (sign = [] → ∀ b ∈ rest.head?, b ≠ 45 ∧ b ≠ 43) := by
  cases text with
  | nil => exact ⟨[], [], rfl, .inl rfl, by simp⟩
  | cons b rest =>
    by_cases h45 : b = 45
    · exact ⟨[45], rest, by rw [h45]; rfl, .inr (.inl rfl), by simp⟩
    by_cases h43 : b = 43
    · exact ⟨[43], rest, by rw [h43]; rfl, .inr (.inr rfl), by simp⟩
    · exact ⟨[], b :: rest, rfl, .inl rfl, by simp [h45, h43]⟩

theorem head?_dropWhile_eq_false (q : UInt8 → Bool) (text : Bytes) :
    ∀ b ∈ (text.dropWhile q).head?, q b = false := by
  intro b hb
  have h := List.head?_dropWhile_not q text
  rw [hb] at h
  exact h

/-- Every text begins with a stretch, be it an empty one. -/
theorem exists_stretch (text : Bytes) :
    ∃ blanks sign digits rest, Stretch text blanks sign digits rest := by
  obtain ⟨sign, more, hmore, hsign, hnone⟩ := exists_sign (text.dropWhile isBlank)
  refine ⟨text.takeWhile isBlank, sign, more.takeWhile isDigitByte, more.dropWhile isDigitByte, ?_⟩
  have hstop := head?_dropWhile_eq_false isDigitByte more
  refine ⟨?_, ?_, hsign, ?_, fun b hb => isDigitByte_eq_false_iff.1 (hstop b hb), ?_⟩
  · rw [List.takeWhile_append_dropWhile, ← hmore, List.takeWhile_append_dropWhile]
  · intro b hb
    simpa [isBlank] using List.mem_takeWhile_imp hb
  · intro b hb
    simpa [isDigitByte] using List.mem_takeWhile_imp hb
  · rintro rfl hdigits b hb
    -- nothing was taken behind the blanks, so the rest is all that there is
    have hall := List.takeWhile_append_dropWhile (p := isDigitByte) (l := more)
    rw [hdigits, List.nil_append] at hall
    rw [hall] at hb
    have hblank : isBlank b = false := head?_dropWhile_eq_false isBlank text b (hmore ▸ hb)
    obtain ⟨h45, h43⟩ := hnone rfl b hb
    simp only [isBlank, Bool.or_eq_false_iff, decide_eq_false_iff_not] at hblank
    exact ⟨hblank.1, hblank.2, h45, h43⟩

end Stretches

/-- Reading an axis takes blanks, a sign and all digits, and gives the signed number that is
congruent to what they spell. What was written for a value is read as this value, as long as no
digit follows it. -/
theorem readAxis_spelled :
    (∀ text, ∃ blanks sign digits rest, Stretch text blanks sign digits rest) ∧
    (∀ text blanks sign digits rest, Stretch text blanks sign digits rest →
      (readAxis text).2 = rest ∧ (readAxis text).1.toInt ≡ signedValue sign digits [ZMOD 2 ^ 16]) ∧
    ∀ (v : Int16) (rest : Bytes), (∀ b ∈ rest.head?, ¬ (48 ≤ b ∧ b ≤ 57)) →
      readAxis (32 :: numeral v.toInt ++ rest) = (v, rest) := by
  refine ⟨exists_stretch, ?_, ?_⟩
  · intro text blanks sign digits rest h
    rw [h.readAxis_eq]
    refine ⟨rfl, ?_⟩
    rw [Int16.toInt_ofInt]
    exact Int.bmod_emod
  · intro v rest h
    rw [← signed_eq_numeral]
    exact readAxis_axisText v (while_of_head fun b hb => isDigitByte_eq_false_iff.2 (h b hb)).1

/-- A number that does not fit the accumulator, in front of a separator. -/
theorem readAxis_wide :
    let text : Bytes := [32, 9, 45, 52, 50, 57, 52, 57, 54, 55, 50, 57, 55, 124]
    Stretch text [32, 9] [45] [52, 50, 57, 52, 57, 54, 55, 50, 57, 55] [124] ∧
      signedValue [45] [52, 50, 57, 52, 57, 54, 55, 50, 57, 55] = -4294967297 ∧
      (readAxis text).2 = [124] ∧ (readAxis text).1.toInt ≡ -4294967297 [ZMOD 2 ^ 16] ∧
      readAxis (32 :: numeral (-32768) ++ [46]) = (-32768, [46]) := by
  intro text
  have hs : Stretch text [32, 9] [45] [52, 50, 57, 52, 57, 54, 55, 50, 57, 55] [124] :=
    ⟨rfl, by simp, by decide, by simp, by simp, nofun⟩
  have hv : signedValue [45] [52, 50, 57, 52, 57, 54, 55, 50, 57, 55] = -4294967297 := by decide
  obtain ⟨-, hread, hback⟩ := readAxis_spelled
  obtain ⟨hrest, hvalue⟩ := hread _ _ _ _ _ hs
  exact ⟨hs, hv, hrest, hv ▸ hvalue, hback (-32768) [46] (by simp)⟩

end Line
end PortCodec
