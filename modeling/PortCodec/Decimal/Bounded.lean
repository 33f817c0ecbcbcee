import PortCodec.Decimal.Digits
import PortCodec.Text.Quoted

/-!
Reading decimal integers of a limited size. Digits are taken one after another, and the first
trouble counts: a byte that is no digit, or a number that has grown too large.
-/

namespace PortCodec.Decimal

inductive NumberFault
  | malformed
  | outOfRange
  deriving DecidableEq

def NumberFault.message : NumberFault → String
  | .malformed => "invalid syntax"
  | .outOfRange => "value out of range"

/-- Digits behind the value of those before them, up to a largest value. -/
def boundedDigits (largest : Nat) : (value : Nat) → Bytes → Except NumberFault Nat
  | value, [] => .ok value
  | value, b :: rest =>
    if 48 ≤ b && b ≤ 57 then
      let next := value * 10 + (b.toNat - 48)
      if largest < next then .error .outOfRange else boundedDigits largest next rest
    else .error .malformed

def boundedNatural (bits : Nat) : Bytes → Except NumberFault Nat
  | [] => .error .malformed
  | bs => boundedDigits (Nat.pow 2 bits - 1) 0 bs

def boundedInteger (bits : Nat) (bs : Bytes) : Except NumberFault Int :=
  let (negative, digits) := takeSign bs
  match boundedNatural bits digits with
  | .error e => .error e
  | .ok n =>
    if negative then
      if Nat.pow 2 (bits - 1) < n then .error .outOfRange else .ok (-(n : Int))
    else if Nat.pow 2 (bits - 1) ≤ n then .error .outOfRange
    else .ok n

/-- A text that was to be a number, by which reader, and what is wrong with it. -/
structure NumberError where
  reader : String
  text : Bytes
  fault : NumberFault
  deriving DecidableEq

def NumberError.message (e : NumberError) : String :=
  s!"strconv.{e.reader}: parsing " ++ Text.Quoted.bytes e.text ++ s!": {e.fault.message}"

def readInteger (s : Bytes) : Except NumberError Int :=
  (boundedInteger 64 s).mapError fun fault => { reader := "Atoi", text := s, fault }

def readShort (s : Bytes) : Except NumberError Int16 :=
  match boundedInteger 16 s with
  | .ok n => .ok (Int16.ofInt n)
  | .error fault => .error { reader := "ParseInt", text := s, fault }

end PortCodec.Decimal
