/-!
Byte strings. Lines, states and machine code are lists of bytes; words are stored least
significant byte first.
-/

namespace PortCodec

-- a power with a literal exponent is the built-in one, whatever else is imported; one with a
-- computed exponent is written `Nat.pow` or `Int.pow`
attribute [default_instance 10001] instPowNat

abbrev Bytes := List UInt8

namespace Bytes

def byteAt (bs : Bytes) (i : Nat) : UInt8 := bs.getD i 0

def littleEndian : (k : Nat) → Nat → Bytes
  | 0, _ => []
  | k + 1, n => UInt8.ofNat (n % 256) :: littleEndian k (n / 256)

def toNatLE : Bytes → Nat
  | [] => 0
  | b :: bs => b.toNat + 256 * toNatLE bs

@[simp] theorem littleEndian_length (k n : Nat) : (littleEndian k n).length = k := by
  induction k generalizing n with
  | zero => rfl
  | succ k ih => simp [littleEndian, ih]

/-- The two low bytes of `n` at position `i` of `bs`; a position past the end is ignored. -/
def setWord (bs : Bytes) (i : Nat) (n : UInt16) : Bytes :=
  (bs.set i n.toUInt8).set (i + 1) (n >>> 8).toUInt8

def word (bs : Bytes) (i : Nat) : UInt16 :=
  (bs.byteAt i).toUInt16 ||| ((bs.byteAt (i + 1)).toUInt16 <<< 8)

def ofAscii (s : String) : Bytes := s.toList.map fun c => UInt8.ofNat c.toNat

def ofString (s : String) : Bytes := s.toUTF8.toList

/-- A text stands for its bytes where bytes are wanted. -/
instance : Coe String Bytes := ⟨ofString⟩

/-- The characters with the numbers of the bytes. -/
def asciiText (bs : Bytes) : String := String.ofList (bs.map fun b => Char.ofNat b.toNat)

def toString? (bs : Bytes) : Option String := String.fromUTF8? ⟨bs.toArray⟩

def hexDigit (n : Nat) : Char :=
  if n < 10 then Char.ofNat (48 + n) else Char.ofNat (87 + n)

/-- Two lower-case digits a byte. -/
def hex (bs : Bytes) : String :=
  String.ofList (bs.flatMap fun b => [hexDigit (b.toNat / 16), hexDigit (b.toNat % 16)])

def hexValue? (b : UInt8) : Option UInt8 :=
  if 48 ≤ b && b ≤ 57 then some (b - 48)
  else if 97 ≤ b && b ≤ 102 then some (b - 87)
  else if 65 ≤ b && b ≤ 70 then some (b - 55)
  else none

inductive HexFault
  | invalidByte (b : UInt8)
  | oddLength
  deriving DecidableEq

/-- Reads pairs of digits. A byte that is no digit counts before a missing last digit. -/
def unhex : Bytes → Except HexFault Bytes
  | [] => .ok []
  | [a] => match hexValue? a with
    | none => .error (.invalidByte a)
    | some _ => .error .oddLength
  | a :: b :: rest => match hexValue? a, hexValue? b with
    | none, _ => .error (.invalidByte a)
    | _, none => .error (.invalidByte b)
    | some x, some y => (unhex rest).map ((x * 16 + y) :: ·)

end Bytes
end PortCodec
