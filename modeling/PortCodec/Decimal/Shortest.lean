import PortCodec.Decimal.Binary64

/-!
The decimal with the fewest digits that reads back as a given double. Among decimals of that
length the nearest is taken, a tie going to the even last digit. Texts use an exponent when it
is below -4 or at least 6.
-/

namespace PortCodec.Decimal

/-- A decimal `0.d₁d₂… * 10 ^ point`, its digits most significant first. -/
structure Digits where
  digits : List Nat
  point : Int

namespace Shortest

def compareScaled (a : Nat) (k : Int) (b : Nat) (q : Int) : Ordering :=
  let left :=
    a * (if 0 ≤ k then Nat.pow 10 k.natAbs else 1) * (if q < 0 then Nat.pow 2 q.natAbs else 1)
  let right :=
    b * (if 0 ≤ q then Nat.pow 2 q.natAbs else 1) * (if k < 0 then Nat.pow 10 k.natAbs else 1)
  compare left right

/-- The decimals that read back as `m * 2 ^ q` lie between these ends, given in quarters of the
last binary place. -/
def ends (m : Nat) (q : Int) : Nat × Nat :=
  (if m = 2 ^ 52 ∧ -1074 < q then 4 * m - 1 else 4 * m - 2, 4 * m + 2)

/-- Whether `d * 10 ^ k` reads back as `m * 2 ^ q`. The ends belong to an even mantissa. -/
def readsBack (m : Nat) (q : Int) (d : Nat) (k : Int) : Bool :=
  let (low, high) := ends m q
  match compareScaled d k low (q - 2), compareScaled d k high (q - 2) with
  | .gt, .lt => true
  | .eq, _ => m % 2 = 0
  | _, .eq => m % 2 = 0
  | _, _ => false

def floorAt (m : Nat) (q k : Int) : Nat :=
  (m * (if 0 ≤ q then Nat.pow 2 q.natAbs else 1) * (if k < 0 then Nat.pow 10 k.natAbs else 1)) /
    ((if q < 0 then Nat.pow 2 q.natAbs else 1) * (if 0 ≤ k then Nat.pow 10 k.natAbs else 1))

/-- The multiple of `10 ^ k` nearest to the value that reads back, if one does. -/
def onGrid (m : Nat) (q k : Int) : Option Nat :=
  let d := floorAt m q k
  match readsBack m q d k, readsBack m q (d + 1) k with
  | true, false => some d
  | false, true => some (d + 1)
  | false, false => none
  | true, true =>
    match compareScaled (2 * d + 1) k (2 * m) q with
    | .gt => some d
    | .lt => some (d + 1)
    | .eq => some (d + d % 2)

/-- Tries one digit more each time, from grid `10 ^ k` down. -/
def search (m : Nat) (q : Int) : (fuel : Nat) → (k : Int) → Nat × Int
  | 0, k => (floorAt m q k, k)
  | fuel + 1, k => match onGrid m q k with
    | some d => if d = 0 then search m q fuel (k - 1) else (d, k)
    | none => search m q fuel (k - 1)

def digitsOf (n : Nat) : List Nat :=
  if n < 10 then [n] else digitsOf (n / 10) ++ [n % 10]

/-- The shortest digits of `m * 2 ^ q`, for a positive `m`. -/
def digits (m : Nat) (q : Int) : Digits :=
  let top : Int := (q + m.log2) * 30103 / 100000 + 1
  let (d, k) := search m q 25 top
  let ds := digitsOf d
  ⟨(ds.reverse.dropWhile (· = 0)).reverse, k + ds.length⟩

end Shortest

def Digits.chars (ds : List Nat) : List Char := ds.map fun d => Char.ofNat (48 + d)

/-- `0.d₁d₂… * 10 ^ point` without an exponent. -/
def Digits.plain (d : Digits) : List Char :=
  if d.point ≤ 0 then
    '0' :: '.' :: List.replicate d.point.natAbs '0' ++ chars d.digits
  else
    let n := d.point.natAbs
    let whole := chars (d.digits.take n) ++ List.replicate (n - d.digits.length) '0'
    match d.digits.drop n with
    | [] => whole
    | rest => whole ++ '.' :: chars rest

/-- `d₁.d₂… e ± xx`, with at least two digits of exponent. -/
def Digits.scientific (d : Digits) : List Char :=
  let e := d.point - 1
  let mark := if e < 0 then '-' else '+'
  let power := chars (Shortest.digitsOf e.natAbs)
  let power := if power.length < 2 then '0' :: power else power
  let body := match d.digits with
    | [] => ['0']
    | [a] => chars [a]
    | a :: rest => chars [a] ++ '.' :: chars rest
  body ++ 'e' :: mark :: power

def Binary64.text : Binary64 → String
  | .nan => "NaN"
  | .infinite negative => if negative then "-Inf" else "+Inf"
  | .finite negative m q =>
    let sign := if negative then "-" else ""
    if m = 0 then sign ++ "0"
    else
      let d := Shortest.digits m q
      let e := d.point - 1
      sign ++ String.ofList (if e < -4 ∨ 6 ≤ e then d.scientific else d.plain)

end PortCodec.Decimal
