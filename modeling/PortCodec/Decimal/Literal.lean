import PortCodec.Decimal.Numeral

/-!
Integers as they are written in programs: a base may be given at the start, and underscores may
stand between digits.
-/

namespace PortCodec.Decimal

/-- The base of a literal, its digits, and whether a mark gave the base. A zero in front of other
digits is a mark of base eight. -/
def literalBase : List Char → Nat × List Char × Bool
  | '0' :: c :: d :: rest =>
    if c = 'x' || c = 'X' then (16, d :: rest, true)
    else if c = 'o' || c = 'O' then (8, d :: rest, true)
    else if c = 'b' || c = 'B' then (2, d :: rest, true)
    else (8, c :: d :: rest, false)
  | '0' :: c :: rest => (8, c :: rest, false)
  | cs => (10, cs, false)

/-- Whether each underscore stands between digits. A mark counts as a digit. -/
def underscoresFit : (afterDigit : Bool) → List Char → Bool
  | _, [] => true
  | afterDigit, '_' :: rest => afterDigit && rest.head?.any (· ≠ '_') && underscoresFit false rest
  | _, _ :: rest => underscoresFit true rest

def literal? (cs : List Char) : Option Nat :=
  let (base, digits, marked) := literalBase cs
  let startsWithDigit := marked || base = 8
  if digits.contains '_' && !underscoresFit startsWithDigit digits then none
  else unsigned? base (digits.filter (· ≠ '_'))

def literalNatural? (bits : Nat) (s : String) : Option Nat :=
  (literal? s.toList).filter (· < Nat.pow 2 bits)

def literalInteger? (bits : Nat) (s : String) : Option Int :=
  match s.toList with
  | '-' :: cs => ((literal? cs).filter (· ≤ Nat.pow 2 (bits - 1))).map fun n => -(n : Int)
  | '+' :: cs => ((literal? cs).filter (· < Nat.pow 2 (bits - 1))).map Int.ofNat
  | cs => ((literal? cs).filter (· < Nat.pow 2 (bits - 1))).map Int.ofNat

end PortCodec.Decimal
