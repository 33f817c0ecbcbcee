import Mathlib.Data.List.Infix
import Mathlib.Data.Nat.Notation
import PortCodec.Text.Utf8

/-! Byte strings that begin with a character. Reading finds a character at the front exactly if the
bytes begin with the character's own bytes, and goes on behind them. -/

namespace PortCodec.Text.Utf8

variable {a b c d : UInt8} {bs front more : Bytes} {n : ℕ}

def first? : Bytes → Option (Char × Bytes)
  | [] => none
  | a :: rest =>
    if a < 0x80 then some (Char.ofNat a.toNat, rest)
    else match rest with
      | [] => none
      | b :: rest =>
        if 0xc2 ≤ a && a ≤ 0xdf && isTail b 0x80 0xbf then
          some (Char.ofNat (a.toNat % 32 * 64 + tailBits b), rest)
        else match rest with
          | [] => none
          | c :: rest =>
            if 0xe0 ≤ a && a ≤ 0xef && isTail b (tailBounds a).1 (tailBounds a).2 &&
              isTail c 0x80 0xbf then
              some (Char.ofNat ((a.toNat % 16 * 64 + tailBits b) * 64 + tailBits c), rest)
            else match rest with
              | [] => none
              | d :: rest =>
                if 0xf0 ≤ a && a ≤ 0xf4 && isTail b (tailBounds a).1 (tailBounds a).2 &&
                    isTail c 0x80 0xbf && isTail d 0x80 0xbf then
                  some (Char.ofNat (((a.toNat % 8 * 64 + tailBits b) * 64 + tailBits c) *
                    64 + tailBits d), rest)
                else none

/-- Reading takes the character at the front, or else one byte. -/
theorem scalars_cons (a : UInt8) (rest : Bytes) : scalars (a :: rest) =
    match first? (a :: rest) with
    | some (c, more) => .char c :: scalars more
    | none => .stray a :: scalars rest := by
  have hnil : scalars [] = [] := by rw [scalars]
  rcases rest with _ | ⟨b, _ | ⟨c, _ | ⟨d, rest⟩⟩⟩ <;> conv_lhs => rw [scalars]
  all_goals rw [first?]
  · split_ifs <;> simp only [hnil]
  all_goals
    generalize tailBounds a = bounds
    obtain ⟨low, high⟩ := bounds
    dsimp only
    split_ifs <;> simp only [hnil]

theorem isTail_iff {low high : UInt8} :
    isTail b low high = true ↔ low.toNat ≤ b.toNat ∧ b.toNat ≤ high.toNat := by
  simp [isTail, UInt8.le_iff_toNat_le]

def Tail (b : UInt8) : Prop := 0x80 ≤ b.toNat ∧ b.toNat ≤ 0xbf

/-- A byte that may stand behind the lead byte `a` of a long form. The bounds leave out the numbers
that have a shorter form, the surrogates, and the numbers past the last code point. -/
structure Second (a b : UInt8) : Prop where
  tail : Tail b
  long : a.toNat = 0xe0 → 0xa0 ≤ b.toNat
  surrogate : a.toNat = 0xed → b.toNat ≤ 0x9f
  longest : a.toNat = 0xf0 → 0x90 ≤ b.toNat
  last : a.toNat = 0xf4 → b.toNat ≤ 0x8f

theorem isTail_iff_tail : isTail b 0x80 0xbf = true ↔ Tail b := isTail_iff

theorem isTail_iff_second : isTail b (tailBounds a).1 (tailBounds a).2 = true ↔ Second a b := by
  have hcases :
      Second a b ↔ Tail b ∧ (a.toNat = 0xe0 → 0xa0 ≤ b.toNat) ∧ (a.toNat = 0xed → b.toNat ≤ 0x9f) ∧
      (a.toNat = 0xf0 → 0x90 ≤ b.toNat) ∧ (a.toNat = 0xf4 → b.toNat ≤ 0x8f) :=
    ⟨fun h => ⟨h.tail, h.long, h.surrogate, h.longest, h.last⟩,
      fun ⟨h1, h2, h3, h4, h5⟩ => ⟨h1, h2, h3, h4, h5⟩⟩
  rw [hcases, isTail_iff, tailBounds, Tail]
  simp only [← UInt8.toNat_inj]
  split_ifs with h1 h2 h3 h4 <;> simp_all <;> omega

theorem two_iff : (0xc2 ≤ a && a ≤ 0xdf && isTail b 0x80 0xbf) = true ↔
    0xc2 ≤ a.toNat ∧ a.toNat ≤ 0xdf ∧ Tail b := by
  simp [isTail_iff_tail, UInt8.le_iff_toNat_le, and_assoc]

theorem three_iff : (0xe0 ≤ a && a ≤ 0xef && isTail b (tailBounds a).1 (tailBounds a).2 &&
    isTail c 0x80 0xbf) = true ↔ 0xe0 ≤ a.toNat ∧ a.toNat ≤ 0xef ∧ Second a b ∧ Tail c := by
  simp [isTail_iff_tail, isTail_iff_second, UInt8.le_iff_toNat_le, and_assoc]

theorem four_iff :
    (0xf0 ≤ a && a ≤ 0xf4 && isTail b (tailBounds a).1 (tailBounds a).2 && isTail c 0x80 0xbf &&
    isTail d 0x80 0xbf) = true ↔
      0xf0 ≤ a.toNat ∧ a.toNat ≤ 0xf4 ∧ Second a b ∧ Tail c ∧ Tail d := by
  simp [isTail_iff_tail, isTail_iff_second, UInt8.le_iff_toNat_le, and_assoc]

/-- The bytes of a character, in each of the four forms, with the number they spell. -/
inductive Spells : Bytes → ℕ → Prop
  | one {a : UInt8} : a.toNat < 0x80 → Spells [a] a.toNat
  | two {a b : UInt8} : 0xc2 ≤ a.toNat → a.toNat ≤ 0xdf → Tail b →
      Spells [a, b] (a.toNat % 32 * 64 + tailBits b)
  | three {a b c : UInt8} : 0xe0 ≤ a.toNat → a.toNat ≤ 0xef → Second a b → Tail c →
      Spells [a, b, c] ((a.toNat % 16 * 64 + tailBits b) * 64 + tailBits c)
  | four {a b c d : UInt8} : 0xf0 ≤ a.toNat → a.toNat ≤ 0xf4 → Second a b → Tail c → Tail d →
      Spells [a, b, c, d] (((a.toNat % 8 * 64 + tailBits b) * 64 + tailBits c) * 64 + tailBits d)

/-- What spells a number is read as its character. -/
theorem Spells.first? (h : Spells front n) (more : Bytes) :
    first? (front ++ more) = some (Char.ofNat n, more) := by
  cases h with
  | one ha => exact if_pos (UInt8.lt_iff_toNat_lt.2 ha)
  | @two a b ha ha' hb =>
    have h1 : ¬ a < 0x80 := by rw [UInt8.lt_iff_toNat_lt]; exact not_lt.2 (le_trans (by decide) ha)
    exact (if_neg h1).trans (if_pos (two_iff.2 ⟨ha, ha', hb⟩))
  | @three a b c ha ha' hb hc =>
    have h1 : ¬ a < 0x80 := by rw [UInt8.lt_iff_toNat_lt]; exact not_lt.2 (le_trans (by decide) ha)
    have h2 := mt two_iff.1
        (fun h => absurd h.2.1 (by omega) : ¬ (0xc2 ≤ a.toNat ∧ a.toNat ≤ 0xdf ∧ Tail b))
    exact (if_neg h1).trans ((if_neg h2).trans (if_pos (three_iff.2 ⟨ha, ha', hb, hc⟩)))
  | @four a b c d ha ha' hb hc hd =>
    have h1 : ¬ a < 0x80 := by rw [UInt8.lt_iff_toNat_lt]; exact not_lt.2 (le_trans (by decide) ha)
    have h2 := mt two_iff.1
        (fun h => absurd h.2.1 (by omega) : ¬ (0xc2 ≤ a.toNat ∧ a.toNat ≤ 0xdf ∧ Tail b))
    have h3 := mt three_iff.1
      (fun h => absurd h.2.1 (by omega) : ¬ (0xe0 ≤ a.toNat ∧ a.toNat ≤ 0xef ∧ Second a b ∧ Tail c))
    exact (if_neg h1).trans
      ((if_neg h2).trans ((if_neg h3).trans (if_pos (four_iff.2 ⟨ha, ha', hb, hc, hd⟩))))

/-- What is read as a character spells a number. -/
theorem exists_spells {x : Char} (h : Utf8.first? bs = some (x, more)) :
    ∃ front n, Spells front n ∧ bs = front ++ more ∧ x = Char.ofNat n := by
  rw [Utf8.first?.eq_def] at h
  split at h
  · cases h
  split_ifs at h with h1
  · cases h
    exact ⟨_, _, .one (UInt8.lt_iff_toNat_lt.1 h1), rfl, rfl⟩
  split at h
  · cases h
  split_ifs at h with h2
  · cases h
    obtain ⟨ha, ha', hb⟩ := two_iff.1 h2
    exact ⟨_, _, .two ha ha' hb, rfl, rfl⟩
  split at h
  · cases h
  split_ifs at h with h3
  · cases h
    obtain ⟨ha, ha', hb, hc⟩ := three_iff.1 h3
    exact ⟨_, _, .three ha ha' hb hc, rfl, rfl⟩
  split at h
  · cases h
  split_ifs at h with h4
  cases h
  obtain ⟨ha, ha', hb, hc, hd⟩ := four_iff.1 h4
  exact ⟨_, _, .four ha ha' hb hc hd, rfl, rfl⟩

/-- The bytes of a character spell its number. -/
theorem spells_encode (x : Char) : Spells (String.utf8EncodeChar x) x.toNat := by
  have hx : x.toNat < 0xd800 ∨ 0xdfff < x.toNat ∧ x.toNat < 0x110000 := x.valid
  unfold String.utf8EncodeChar
  dsimp only
  rw [show x.val.toNat = x.toNat from rfl]
  generalize x.toNat = n at *
  have tail (k : ℕ) : (UInt8.ofNat (k % 64 + 0x80)).toNat = k % 64 + 0x80 :=
    UInt8.toNat_ofNat_of_lt (show _ < 256 by omega)
  have tail' (k : ℕ) : Tail (UInt8.ofNat (k % 64 + 0x80)) := by
    rw [Tail, tail]
    omega
  have bits (k : ℕ) : tailBits (UInt8.ofNat (k % 64 + 0x80)) = k % 64 := by
    rw [tailBits, tail]
    omega
  split_ifs with h1 h2 h3
  · have ha : (UInt8.ofNat n).toNat = n := UInt8.toNat_ofNat_of_lt (show _ < 256 by omega)
    have h := Spells.one (a := UInt8.ofNat n) (by omega)
    rwa [ha] at h
  · have ha : (UInt8.ofNat (n / 64 % 32 + 0xc0)).toNat = n / 64 % 32 + 0xc0 :=
      UInt8.toNat_ofNat_of_lt (show _ < 256 by omega)
    have h := Spells.two (a := UInt8.ofNat (n / 64 % 32 + 0xc0)) (by omega) (by omega) (tail' n)
    rwa [ha, bits, show (n / 64 % 32 + 0xc0) % 32 * 64 + n % 64 = n by omega] at h
  · have ha : (UInt8.ofNat (n / 4096 % 16 + 0xe0)).toNat = n / 4096 % 16 + 0xe0 :=
      UInt8.toNat_ofNat_of_lt (show _ < 256 by omega)
    have hb : Second (UInt8.ofNat (n / 4096 % 16 + 0xe0)) (UInt8.ofNat (n / 64 % 64 + 0x80)) := by
      constructor <;> simp only [tail', tail, ha] <;> omega
    have h := Spells.three (a := UInt8.ofNat (n / 4096 % 16 + 0xe0)) (by omega)
        (by omega) hb (tail' n)
    rwa [ha, bits, bits,
      show ((n / 4096 % 16 + 0xe0) % 16 * 64 + n / 64 % 64) * 64 + n % 64 = n by omega] at h
  · have ha : (UInt8.ofNat (n / 262144 % 8 + 0xf0)).toNat = n / 262144 % 8 + 0xf0 :=
      UInt8.toNat_ofNat_of_lt (show _ < 256 by omega)
    have hb : Second (UInt8.ofNat (n / 262144 % 8 + 0xf0))
        (UInt8.ofNat (n / 4096 % 64 + 0x80)) := by
      constructor <;> simp only [tail', tail, ha] <;> omega
    have h := Spells.four (a := UInt8.ofNat (n / 262144 % 8 + 0xf0)) (by omega) (by omega) hb
      (tail' (n / 64)) (tail' n)
    rwa [ha, bits, bits, bits, show (((n / 262144 % 8 + 0xf0) % 8 * 64 + n / 4096 % 64) * 64 +
      n / 64 % 64) * 64 + n % 64 = n by omega] at h

theorem Spells.isValidChar (h : Spells front n) : n.isValidChar := by
  unfold Nat.isValidChar
  cases h with
  | one ha => omega
  | two ha ha' hb =>
    rw [tailBits]
    omega
  | three ha ha' hb hc =>
    obtain ⟨⟨hb, hb'⟩, -, h1, -, -⟩ := hb
    rw [tailBits, tailBits]
    omega
  | four ha ha' hb hc hd =>
    obtain ⟨⟨hb, hb'⟩, -, -, h1, h2⟩ := hb
    rw [tailBits, tailBits, tailBits]
    omega

theorem byte_eq (h : n = a.toNat) : UInt8.ofNat n = a := by rw [h, UInt8.ofNat_toNat]

/-- What spells a number is what its character is written as. -/
theorem Spells.encode (h : Spells front n) : String.utf8EncodeChar (Char.ofNat n) = front := by
  have hn : (Char.ofNat n).val.toNat = n := by
    rw [Char.ofNat, dif_pos h.isValidChar]
    rfl
  unfold String.utf8EncodeChar
  dsimp only
  rw [hn]
  cases h with
  | one ha => rw [if_pos (Nat.le_of_lt_succ ha), UInt8.ofNat_toNat]
  | @two a b ha ha' hb =>
    obtain ⟨hb, hb'⟩ := hb
    rw [tailBits]
    generalize hm : a.toNat % 32 * 64 + b.toNat % 64 = m
    rw [if_neg (show ¬ m ≤ 0x7f by omega), if_pos (show m ≤ 0x7ff by omega),
      byte_eq (show m / 64 % 32 + 0xc0 = a.toNat by omega),
        byte_eq (show m % 64 + 0x80 = b.toNat by omega)]
  | @three a b c ha ha' hb hc =>
    obtain ⟨⟨hb, hb'⟩, h1, -⟩ := hb
    obtain ⟨hc, hc'⟩ := hc
    rw [tailBits, tailBits]
    generalize hm : (a.toNat % 16 * 64 + b.toNat % 64) * 64 + c.toNat % 64 = m
    rw [if_neg (show ¬ m ≤ 0x7f by omega), if_neg (show ¬ m ≤ 0x7ff by omega),
      if_pos (show m ≤ 0xffff by omega),
      byte_eq (show m / 4096 % 16 + 0xe0 = a.toNat by omega),
      byte_eq (show m / 64 % 64 + 0x80 = b.toNat by omega),
      byte_eq (show m % 64 + 0x80 = c.toNat by omega)]
  | @four a b c d ha ha' hb hc hd =>
    obtain ⟨⟨hb, hb'⟩, -, -, h1, -⟩ := hb
    obtain ⟨hc, hc'⟩ := hc
    obtain ⟨hd, hd'⟩ := hd
    rw [tailBits, tailBits, tailBits]
    generalize hm : ((a.toNat % 8 * 64 + b.toNat % 64) * 64 + c.toNat % 64) * 64 + d.toNat % 64 = m
    rw [if_neg (show ¬ m ≤ 0x7f by omega), if_neg (show ¬ m ≤ 0x7ff by omega),
      if_neg (show ¬ m ≤ 0xffff by omega),
      byte_eq (show m / 262144 % 8 + 0xf0 = a.toNat by omega),
      byte_eq (show m / 4096 % 64 + 0x80 = b.toNat by omega),
      byte_eq (show m / 64 % 64 + 0x80 = c.toNat by omega),
        byte_eq (show m % 64 + 0x80 = d.toNat by omega)]

def Begins (bs : Bytes) (x : Char) : Prop := String.utf8EncodeChar x <+: bs

theorem begins_iff {x : Char} : Begins bs x ↔ ∃ more, Utf8.first? bs = some (x, more) := by
  constructor
  · rintro ⟨more, rfl⟩
    have h := (spells_encode x).first? more
    rw [Char.ofNat_toNat] at h
    exact ⟨more, h⟩
  · rintro ⟨more, h⟩
    obtain ⟨front, n, hn, rfl, rfl⟩ := exists_spells h
    exact ⟨more, by rw [hn.encode]⟩

/-- The first of a text's characters is the one it begins with. A text that begins with none is read
as if it began with the mark. -/
theorem head?_chars (bs : Bytes) (x : Char) : (chars bs).head? = some x ↔
    Begins bs x ∨ bs ≠ [] ∧ x = replacement ∧ ∀ y, ¬ Begins bs y := by
  rw [begins_iff]
  simp only [begins_iff]
  rcases bs with _ | ⟨a, rest⟩
  · simp [chars, scalars, Utf8.first?]
  rw [chars, scalars_cons]
  rcases hf : Utf8.first? (a :: rest) with _ | ⟨y, more⟩
  · simp [repair, eq_comm]
  · simp [repair]

end PortCodec.Text.Utf8

namespace PortCodec.Bytes

theorem toList_loop (bs : ByteArray) (i : ℕ) (front : Bytes) :
    ByteArray.toList.loop bs i front = front.reverse ++ bs.data.toList.drop i := by
  induction hk : bs.size - i generalizing i front with
  | zero =>
    rw [ByteArray.toList.loop, if_neg (by omega), List.drop_eq_nil_of_le, List.append_nil]
    exact Nat.sub_eq_zero_iff_le.1 hk
  | succ k ih =>
    have hi : i < bs.data.toList.length := by
      have : bs.size = bs.data.toList.length := rfl
      omega
    have hget : bs.get! i = bs.data.toList[i] := by
      cases bs with
      | mk data => exact getElem!_pos data i hi
    rw [ByteArray.toList.loop, if_pos (by omega), ih (i + 1) _ (by omega),
      List.drop_eq_getElem_cons hi, hget]
    simp

/-- A byte string has a text exactly if it is the bytes of that text. -/
theorem toString?_eq_some {bs : Bytes} {t : String} : bs.toString? = some t ↔ bs = ofString t := by
  have hlist (a : ByteArray) : a.toList = a.data.toList := toList_loop a 0 []
  rw [toString?, ofString, hlist, String.fromUTF8?]
  constructor
  · intro h
    split_ifs at h with hv
    cases h
    rfl
  · rintro rfl
    exact dif_pos t.isValidUTF8

theorem ofString_eq (s : String) : ofString s = s.toByteArray.data.toList :=
  toList_loop s.toUTF8 0 []

theorem ofString_append (s t : String) : ofString (s ++ t) = ofString s ++ ofString t := by
  rw [ofString_eq, ofString_eq, ofString_eq, String.toByteArray_append,
    ByteArray.toList_data_append]

theorem ofString_join (l : List String) : ofString (String.join l) = l.flatMap ofString := by
  induction l with
  | nil => rw [String.join_nil, ofString_eq]; rfl
  | cons s l ih => rw [String.join_cons, ofString_append, ih, List.flatMap_cons]

theorem prefix_ofString {s t : String} (v : String) (h : t = s ++ v) : ofString s <+: ofString t :=
  ⟨ofString v, by rw [h, ofString_append]⟩

theorem infix_ofString {s t : String} (u v : String) (h : t = u ++ s ++ v) :
    ofString s <:+: ofString t :=
  ⟨ofString u, ofString v, by rw [h, ofString_append, ofString_append]⟩

end PortCodec.Bytes
