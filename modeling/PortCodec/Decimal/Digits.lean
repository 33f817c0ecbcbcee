import PortCodec.Bytes

/-!
Decimal numerals as byte strings: no leading zeros, a minus sign for negative numbers. Numerals that
are read may have a plus sign too.
-/

namespace PortCodec.Decimal

def digit (n : Nat) : UInt8 := UInt8.ofNat (48 + n % 10)

def natural (n : Nat) : Bytes :=
  if n < 10 then [digit n] else natural (n / 10) ++ [digit n]

def signed : Int → Bytes
  | .ofNat n => natural n
  | .negSucc n => 45 :: natural (n + 1)

/-- Whether a numeral has a minus, and what follows its sign, if it has one. -/
def takeSign : Bytes → Bool × Bytes
  | 45 :: rest => (true, rest)
  | 43 :: rest => (false, rest)
  | rest => (false, rest)

end PortCodec.Decimal
