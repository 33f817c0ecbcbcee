import Mathlib.Tactic.NormNum
import Mathlib.Tactic.Ring
import PortCodec.Proofs.Descriptor.Grammar
import PortCodec.Proofs.Outcome

/-! What is read of one field: a text, a flag, a list, an integer or a symbol is read exactly if the
grammar has it. -/

namespace PortCodec.Descriptor

open Document (Value)
open Text.Utf8 (Begins)

section Fields

variable {α β : Type} {path name : String} {fields : Fields} {v : Value} {n : ℤ}

theorem ite_bind_eq_ok {p : Prop} [Decidable p] {x y : Result α} {f : α → Result β} {b : β} :
    (if p then x >>= f else y >>= f) = .ok b ↔ ∃ a, (if p then x else y) = .ok a ∧ f a = .ok b := by
  split_ifs <;> exact bind_eq_ok

theorem object_eq_ok {gs : Fields} : object path v = .ok gs ↔ v = .object gs := by
  cases v <;> simp [object, fail]

theorem text?_eq_ok {s? : Option Bytes} : text? path fields name = .ok s? ↔
    Document.lookup fields name = s?.map .string := by
  rw [text?]
  split
  next h => cases s? <;> simp [h]
  next s h => cases s? <;> simp [h]
  next v hv h =>
    rw [h]
    cases s? with
    | none => simp [fail]
    | some s => simpa [fail] using hv s

theorem text_eq_ok {s : Bytes} : text path fields name = .ok s ↔
    Document.lookup fields name = some (.string s) := by
  rw [text, bind_eq_ok]
  simp only [text?_eq_ok]
  constructor
  · rintro ⟨s?, h, hs⟩
    cases s? with
    | none => cases hs
    | some t => cases hs; exact h
  · intro h
    exact ⟨some s, h, rfl⟩

theorem optional_isText_iff :
    Optional fields name IsText ↔ ∃ s?, text? path fields name = .ok s? := by
  simp only [text?_eq_ok]
  constructor
  · intro h
    cases hv : Document.lookup fields name with
    | none => exact ⟨none, rfl⟩
    | some v =>
      obtain ⟨s⟩ := h v hv
      exact ⟨some s, rfl⟩
  · rintro ⟨s?, hs⟩ v hv
    rw [hs] at hv
    obtain ⟨s, -, rfl⟩ := Option.map_eq_some_iff.1 hv
    exact ⟨s⟩

theorem required_isText_iff : Required fields name IsText ↔ ∃ s, text path fields name = .ok s := by
  simp only [text_eq_ok]
  constructor
  · rintro ⟨v, hv, ⟨s⟩⟩
    exact ⟨s, hv⟩
  · rintro ⟨s, hs⟩
    exact ⟨_, hs, ⟨s⟩⟩

theorem flag_eq_ok {b : Bool} : flag path fields name = .ok b ↔
    Document.lookup fields name = none ∧ b = false ∨
      Document.lookup fields name = some (.bool b) := by
  rw [flag]
  split
  next h => simp [h, eq_comm]
  next c h => simp [h]
  next v hv h =>
    rw [h]
    simpa [fail] using hv b

theorem optional_isFlag_iff : Optional fields name IsFlag ↔ ∃ b, flag path fields name = .ok b := by
  simp only [flag_eq_ok]
  constructor
  · intro h
    cases hv : Document.lookup fields name with
    | none => exact ⟨false, .inl ⟨rfl, rfl⟩⟩
    | some v =>
      obtain ⟨b⟩ := h v hv
      exact ⟨b, .inr rfl⟩
  · rintro ⟨b, ⟨hb, -⟩ | hb⟩ v hv
    · rw [hb] at hv
      cases hv
    · rw [hb] at hv
      cases hv
      exact ⟨b⟩

theorem items?_eq_some {vs : List Value} : v.items? = some vs ↔ Lists v vs := by
  constructor
  · intro h
    cases v <;> cases h
    · exact .list _
    · exact .records _
  · rintro (_ | _) <;> rfl

theorem items_eq_ok {vs : List Value} :
    items path fields name = .ok vs ↔ Required fields name (Lists · vs) := by
  rw [items, Required]
  simp only [← items?_eq_some]
  split
  next h => simp [h, fail]
  next v h =>
    rw [h]
    split
    next ws hw => simp [hw]
    next hw => simp [hw, fail]

/-- The search for the least unknown name ends without one only if there was none. -/
theorem foldl_eq_none {f : Option α → α → Option α} (hf : ∀ o a, f o a ≠ none) (as : List α)
    (o : Option α) :
    as.foldl f o = none ↔ as = [] ∧ o = none := by
  induction as generalizing o with
  | nil => simp
  | cons a rest ih => simp [ih, hf]

theorem onlyKnown_eq_ok {known : List String} : onlyKnown path known fields = .ok () ↔
    OnlyKeys known fields := by
  have hleast : leastUnknown known fields = none ↔ OnlyKeys known fields := by
    rw [leastUnknown, foldl_eq_none]
    · simp [OnlyKeys]
    · intro o a
      cases o <;> simp
  rw [onlyKnown, ← hleast]
  cases leastUnknown known fields <;> simp [fail]

end Fields

section Numbers

variable {path : String} {v : Value} {n : ℤ}

theorem toInt?_finite {negative : Bool} {m : ℕ} {q : ℤ} :
    (Decimal.Binary64.finite negative m q).toInt? = some n ↔
      (n : ℚ) = (if negative then -1 else 1) * m * 2 ^ q := by
  obtain ⟨k, rfl | rfl⟩ : ∃ k : ℕ, q = k ∨ q = -(k + 1) := by
    rcases lt_or_ge q 0 with h | h
    · exact ⟨(-q - 1).toNat, .inr (by omega)⟩
    · exact ⟨q.toNat, .inl (by omega)⟩
  · have hpow : Nat.pow 2 (k : ℤ).natAbs = 2 ^ k := rfl
    rw [Decimal.Binary64.toInt?, if_pos (Int.natCast_nonneg k), hpow, zpow_natCast,
      Option.some.injEq]
    have hcast : (if negative then (-1 : ℚ) else 1) * m * 2 ^ k =
        ((if negative then -((m * 2 ^ k : ℕ) : ℤ) else ((m * 2 ^ k : ℕ) : ℤ) : ℤ) : ℚ) := by
      cases negative <;> push_cast <;> simp
    rw [hcast, Int.cast_inj, eq_comm]
  · have hneg : ¬ (0 : ℤ) ≤ -(k + 1) := by omega
    have hpow : Nat.pow 2 (-((k : ℤ) + 1)).natAbs = 2 ^ (k + 1) := by
      rw [show (-((k : ℤ) + 1)).natAbs = k + 1 by omega]
      rfl
    have hd : (0 : ℤ) < 2 ^ (k + 1) := by positivity
    -- the equation without the denominator
    have hwhole : (n : ℚ) = (if negative then -1 else 1) * m * 2 ^ (-((k : ℤ) + 1)) ↔
        n * 2 ^ (k + 1) = if negative then -(m : ℤ) else m := by
      rw [zpow_neg, ← div_eq_mul_inv, eq_div_iff (zpow_ne_zero _ two_ne_zero),
        show (k : ℤ) + 1 = ((k + 1 : ℕ) : ℤ) by simp, zpow_natCast]
      rw [← @Int.cast_inj ℚ]
      cases negative <;> push_cast <;> simp
    rw [Decimal.Binary64.toInt?, if_neg hneg, hpow, hwhole]
    by_cases hm : m % 2 ^ (k + 1) = 0
    · obtain ⟨c, rfl⟩ := Nat.dvd_of_mod_eq_zero hm
      rw [if_pos hm, Nat.mul_div_cancel_left c (by positivity), Option.some.injEq]
      have hsign :
          (if negative then -((2 ^ (k + 1) * c : ℕ) : ℤ) else ((2 ^ (k + 1) * c : ℕ) : ℤ)) =
          (if negative then -(c : ℤ) else c) * 2 ^ (k + 1) := by
        split_ifs <;> push_cast <;> ring
      rw [hsign, mul_left_inj' hd.ne', eq_comm]
    · rw [if_neg hm]
      refine iff_of_false nofun fun h => hm (Nat.mod_eq_zero_of_dvd (Int.natCast_dvd_natCast.1 ?_))
      have hdvd : (2 ^ (k + 1) : ℤ) ∣ if negative then -(m : ℤ) else m := ⟨n, by rw [← h, mul_comm]⟩
      push_cast
      split_ifs at hdvd
      · exact (Int.dvd_neg).1 hdvd
      · exact hdvd

theorem wide_eq_ok : wide path v = .ok n ↔ Denotes v n ∧ -2 ^ 63 ≤ n ∧ n < 2 ^ 63 := by
  constructor
  · intro h
    unfold wide at h
    split at h
    next k =>
      cases h
      exact ⟨.int k, Int64.le_toInt k, Int64.toInt_lt k⟩
    next k =>
      cases h
      exact ⟨.signed k, Int64.le_toInt k, Int64.toInt_lt k⟩
    next k =>
      split_ifs at h with hk
      · cases h
        exact ⟨.unsigned k, by omega, by omega⟩
      · cases h
    next x =>
      split at h
      · cases h
      next k hk =>
        split_ifs at h with hb
        · cases h
          cases x with
          | finite negative m q => exact ⟨.float (toInt?_finite.1 hk), hb⟩
          | nan => cases hk
          | infinite negative => cases hk
        · cases h
    · cases h
  · rintro ⟨hv, hlow, hhigh⟩
    cases hv with
    | int k | signed k => rfl
    | unsigned k => exact if_pos (by omega)
    | float h =>
      unfold wide
      simp only [toInt?_finite.2 h]
      exact if_pos ⟨hlow, hhigh⟩

theorem integer_eq_ok {bits : ℕ} (hb : bits ≤ 64) : integer bits path v = .ok n ↔
    Denotes v n ∧ -Int.pow 2 (bits - 1) ≤ n ∧ n < Int.pow 2 (bits - 1) := by
  have hpow : Int.pow 2 (bits - 1) ≤ 2 ^ 63 := by
    change (2 : ℤ) ^ (bits - 1) ≤ 2 ^ 63
    exact pow_le_pow_right₀ (by decide) (by omega)
  rw [integer, bind_eq_ok]
  simp only [wide_eq_ok]
  constructor
  · rintro ⟨k, ⟨hk, -⟩, h⟩
    split_ifs at h with hr
    · cases h
      exact ⟨hk, hr⟩
    · cases h
  · rintro ⟨hv, hr⟩
    exact ⟨n, ⟨hv, by omega, by omega⟩, if_pos hr⟩

theorem isCodePoint_iff : isCodePoint n = true ↔ IsScalarValue n := by
  simp only [isCodePoint, IsScalarValue, Nat.isValidChar, Bool.and_eq_true, decide_eq_true_eq]
  omega

theorem isSlot_iff : IsSlot v ↔ ∃ n, slot path v = .ok n := by
  simp only [slot, bind_eq_ok, integer_eq_ok (show 32 ≤ 64 by decide)]
  constructor
  · rintro ⟨n, hn, hlow, hhigh⟩
    exact ⟨n, n, ⟨hn, by norm_num; omega, by norm_num; omega⟩, if_neg (by omega)⟩
  · rintro ⟨n, k, ⟨hk, -, hhigh⟩, h⟩
    split_ifs at h with hlow
    · cases h
    · refine ⟨k, hk, by omega, ?_⟩
      norm_num at hhigh
      omega

end Numbers

section Symbols

variable {path : String} {v : Value} {n : ℤ} {s : Bytes}

theorem Denotes.not_text (h : Denotes v n) (s : Bytes) : v ≠ .string s := by
  rintro rfl
  cases h

theorem symbol_of_not_text (hv : ∀ s, v ≠ .string s) : symbol path v = (do
    let n ← integer 32 path v
    if isCodePoint n then return n else fail path (.noCodePoint n)) := by
  cases v with
  | string s => exact absurd rfl (hv s)
  | _ => rfl

theorem eq_replacement_iff {c : Char} : c = Text.Utf8.replacement ↔ c.toNat = 0xfffd := by
  constructor
  · rintro rfl
    rfl
  · intro h
    rw [← Char.ofNat_toNat c, h]
    rfl

/-- A first character that is not the mark is really there. -/
theorem head?_chars_iff {c : Char} (hc : c.toNat ≠ 0xfffd) :
    (Text.Utf8.chars s).head? = some c ↔ Begins s c := by
  rw [Text.Utf8.head?_chars, eq_replacement_iff]
  simp [hc]

theorem symbol_text_eq_ok : symbol path (.string s) = .ok n ↔
    ∃ c, Begins s c ∧ c.toNat ≠ 0xfffd ∧ (c.toNat : ℤ) = n := by
  rw [symbol]
  split
  next hs =>
    refine iff_of_false nofun ?_
    rintro ⟨c, hc, hmark, -⟩
    rw [← head?_chars_iff hmark, hs] at hc
    cases hc
  next c rest hs =>
    simp only [eq_replacement_iff]
    constructor
    · intro h
      split_ifs at h with hmark
      · cases h
      · cases h
        exact ⟨c, (head?_chars_iff hmark).1 (by rw [hs]; rfl), hmark, rfl⟩
    · rintro ⟨d, hd, hmark, rfl⟩
      rw [← head?_chars_iff hmark, hs] at hd
      cases hd
      exact if_neg hmark

theorem symbol_eq_ok : symbol path v = .ok n ↔ Symbolizes v n := by
  constructor
  · intro h
    by_cases hv : ∃ s, v = .string s
    · obtain ⟨s, rfl⟩ := hv
      obtain ⟨c, hc, hmark, rfl⟩ := symbol_text_eq_ok.1 h
      exact .text hc hmark
    · rw [symbol_of_not_text (by simpa using hv), bind_eq_ok] at h
      obtain ⟨k, hk, h⟩ := h
      split_ifs at h with hp
      · cases h
        exact .number ((integer_eq_ok (by decide)).1 hk).1 (isCodePoint_iff.1 hp)
      · cases h
  · intro h
    cases h with
    | text hc hmark => exact symbol_text_eq_ok.2 ⟨_, hc, hmark, rfl⟩
    | number hv hn =>
      rw [symbol_of_not_text hv.not_text, bind_eq_ok]
      have hbounds : -Int.pow 2 (32 - 1) ≤ n ∧ n < Int.pow 2 (32 - 1) := by
        rw [IsScalarValue] at hn
        norm_num
        omega
      exact ⟨n, (integer_eq_ok (by decide)).2 ⟨hv, hbounds⟩, if_pos (isCodePoint_iff.2 hn)⟩

/-- The first number of a text is that of the character it begins with, unless it is the mark for
damage. -/
theorem firstCodePoint_eq {k : ℕ} (hk : k ≠ 0xfffd) :
    firstCodePoint s = k ↔ ∃ c, Begins s c ∧ c.toNat = k := by
  rw [firstCodePoint]
  split
  next hs =>
    refine iff_of_false (fun h => hk (Int.ofNat_inj.1 h).symm) ?_
    rintro ⟨c, hc, rfl⟩
    rw [← head?_chars_iff hk, hs] at hc
    cases hc
  next c rest hs =>
    constructor
    · intro h
      obtain rfl := Int.ofNat_inj.1 h
      exact ⟨c, (head?_chars_iff hk).1 (by rw [hs]; rfl), rfl⟩
    · rintro ⟨d, hd, rfl⟩
      rw [← head?_chars_iff hk, hs] at hd
      cases hd
      rfl

end Symbols

end PortCodec.Descriptor
