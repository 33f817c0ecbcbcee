import PortCodec.Decimal.Binary64

/-!
Reading numerals: integers in a base, and decimal fractions with an exponent. The whole text has
to be used.
-/

namespace PortCodec.Decimal

def isDigit (c : Char) : Bool := '0' ≤ c && c ≤ '9'

/-- The value of a digit in bases up to 36. -/
def charValue? (c : Char) : Option Nat :=
  if isDigit c then some (c.toNat - 48)
  else if 'a' ≤ c && c ≤ 'z' then some (c.toNat - 87)
  else if 'A' ≤ c && c ≤ 'Z' then some (c.toNat - 55)
  else none

/-- The value of digits in a base; `none` for an empty text or a character that is no digit. -/
def unsigned? (base : Nat) : List Char → Option Nat
  | [] => none
  | cs => cs.foldlM (fun n c => do
      let d ← charValue? c
      if d < base then some (n * base + d) else none) 0

def signed? (base : Nat) : List Char → Option Int
  | '-' :: cs => (unsigned? base cs).map fun n => -(n : Int)
  | '+' :: cs => (unsigned? base cs).map Int.ofNat
  | cs => (unsigned? base cs).map Int.ofNat

def digitsValue (cs : List Char) : Nat := cs.foldl (fun n c => n * 10 + (c.toNat - 48)) 0

/-- The exponent of a fraction: nothing, or a mark, an optional sign and digits. -/
def exponent? : List Char → Option Int
  | [] => some 0
  | c :: cs =>
    if c = 'e' ∨ c = 'E' then
      if cs.all isDigit then (unsigned? 10 cs).map Int.ofNat
      else match cs with
        | s :: ds => if s = '+' ∨ s = '-' then
            if ds.all isDigit then signed? 10 (s :: ds) else none
          else none
        | [] => none
    else none

/-- A decimal fraction, rounded to a double. It has a digit before its exponent. -/
def fraction? (cs : List Char) : Option Binary64 := do
  let (negative, cs) := match cs with
    | '-' :: cs => (true, cs)
    | '+' :: cs => (false, cs)
    | cs => (false, cs)
  let whole := cs.takeWhile isDigit
  let (places, cs) := match cs.dropWhile isDigit with
    | '.' :: cs => (cs.takeWhile isDigit, cs.dropWhile isDigit)
    | cs => ([], cs)
  let e ← exponent? cs
  if whole.isEmpty && places.isEmpty then none
  else some (.ofDecimal negative (digitsValue (whole ++ places)) (e - places.length))

end PortCodec.Decimal
