import PortCodec.Decimal.Digits

/-!
The text of an axis: a blank and a signed decimal. Reading is lenient about blanks, signs and
length; the value is kept modulo 2 ^ 16.
-/

namespace PortCodec.Line

def axisText (v : Int16) : Bytes := 32 :: Decimal.signed v.toInt

def skipBlanks : Bytes → Bytes
  | b :: rest => if b = 32 ∨ b = 9 then skipBlanks rest else b :: rest
  | [] => []

/-- Adds digits to an accumulator of 32 bits that wraps around. -/
def takeDigits (acc : Int32) : Bytes → Int32 × Bytes
  | b :: rest =>
    if b - 48 ≤ 9 then takeDigits (acc * 10 + (b - 48).toUInt32.toInt32) rest else (acc, b :: rest)
  | [] => (acc, [])

/-- The axis value at the head of a text, and the text behind it. -/
def readAxis (text : Bytes) : Int16 × Bytes :=
  let (negative, digits) := Decimal.takeSign (skipBlanks text)
  let (acc, rest) := takeDigits 0 digits
  ((if negative then -acc else acc).toInt16, rest)

end PortCodec.Line
