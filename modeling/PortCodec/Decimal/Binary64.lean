import PortCodec.Bytes

/-!
Double-precision numbers by value: `m * 2 ^ q` with `m < 2 ^ 53` and `-1074 ≤ q`. A decimal is
read as the nearest such number, a half going to the even mantissa.
-/

namespace PortCodec.Decimal

inductive Binary64
  | nan
  | infinite (negative : Bool)
  | finite (negative : Bool) (mantissa : Nat) (exponent : Int)
  deriving DecidableEq

namespace Binary64

/-- `a / b` to the nearest natural number, a half going to the even one. -/
def roundDiv (a b : Nat) : Nat :=
  let q := a / b
  let twice := 2 * (a % b)
  if twice < b then q
  else if b < twice then q + 1
  else q + q % 2

def scaled (num den : Nat) (q : Int) : Nat :=
  if q < 0 then roundDiv (num * Nat.pow 2 q.natAbs) den
  else roundDiv num (den * Nat.pow 2 q.natAbs)

/-- The exponent of the number nearest to `num / den`, before rounding. -/
def exponentFor (num den : Nat) : Int :=
  let q : Int := max (-1074) (num.log2 - den.log2 - 53)
  let whole := if q < 0 then num * Nat.pow 2 q.natAbs / den else num / (den * Nat.pow 2 q.natAbs)
  if 2 ^ 53 ≤ whole then q + 1 else q

def ofRatio (negative : Bool) (num den : Nat) : Binary64 :=
  if num = 0 then .finite negative 0 0
  else
    let q := exponentFor num den
    let m := scaled num den q
    let (m, q) := if m = 2 ^ 53 then (2 ^ 52, q + 1) else (m, q)
    if 971 < q then .infinite negative else .finite negative m q

/-- The number nearest to `digits * 10 ^ exponent`. Exponents far outside the range of doubles
are decided by the number of digits alone. -/
def ofDecimal (negative : Bool) (digits : Nat) (exponent : Int) : Binary64 :=
  if digits = 0 then .finite negative 0 0
  else
    let magnitude := exponent + (digits.log2 / 3 : Nat)
    if 400 < exponent then .infinite negative
    else if magnitude < -400 then .finite negative 0 0
    else if exponent < 0 then ofRatio negative digits (Nat.pow 10 exponent.natAbs)
    else ofRatio negative (digits * Nat.pow 10 exponent.natAbs) 1

def ofNat (negative : Bool) (n : Nat) : Binary64 := ofRatio negative n 1

def isInfinite : Binary64 → Bool
  | .infinite _ => true
  | _ => false

def toInt? : Binary64 → Option Int
  | .finite negative m q =>
    let sign (n : Nat) : Int := if negative then -n else n
    if 0 ≤ q then some (sign (m * Nat.pow 2 q.natAbs))
    else if m % Nat.pow 2 q.natAbs = 0 then some (sign (m / Nat.pow 2 q.natAbs))
    else none
  | _ => none

end Binary64
end PortCodec.Decimal
