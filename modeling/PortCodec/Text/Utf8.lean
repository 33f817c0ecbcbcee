import PortCodec.Bytes

/-!
Reading UTF-8 with damage. Bytes are cut into characters; a byte that starts no well-formed
sequence stands for itself and the reading goes on behind it.
-/

namespace PortCodec.Text

inductive Scalar
  | char (c : Char)
  | stray (b : UInt8)
  deriving DecidableEq

namespace Utf8

/-- Whether `b` may follow a lead byte, within the given bounds. -/
def isTail (b : UInt8) (low high : UInt8) : Bool := low ≤ b && b ≤ high

def tailBits (b : UInt8) : Nat := b.toNat % 64

/-- The bounds of the byte behind a lead byte: they rule out overlong forms, surrogates and
numbers past the last code point. -/
def tailBounds (lead : UInt8) : UInt8 × UInt8 :=
  if lead = 0xe0 then (0xa0, 0xbf)
  else if lead = 0xed then (0x80, 0x9f)
  else if lead = 0xf0 then (0x90, 0xbf)
  else if lead = 0xf4 then (0x80, 0x8f)
  else (0x80, 0xbf)

/-- How many bytes the form of a first byte announces. -/
def announced? (lead : UInt8) : Option Nat :=
  if lead < 0x80 then some 1
  else if lead < 0xc0 then none
  else if lead < 0xe0 then some 2
  else if lead < 0xf0 then some 3
  else if lead < 0xf8 then some 4
  else none

/-- Cuts a byte string into characters and stray bytes. -/
def scalars : Bytes → List Scalar
  | [] => []
  | a :: rest =>
    if a < 0x80 then .char (Char.ofNat a.toNat) :: scalars rest
    else
      let (low, high) := tailBounds a
      match rest with
      | b :: c :: d :: rest' =>
        if 0xc2 ≤ a && a ≤ 0xdf && isTail b 0x80 0xbf then
          .char (Char.ofNat (a.toNat % 32 * 64 + tailBits b)) :: scalars (c :: d :: rest')
        else if 0xe0 ≤ a && a ≤ 0xef && isTail b low high && isTail c 0x80 0xbf then
          .char (Char.ofNat ((a.toNat % 16 * 64 + tailBits b) * 64 + tailBits c)) ::
            scalars (d :: rest')
        else if 0xf0 ≤ a && a ≤ 0xf4 && isTail b low high && isTail c 0x80 0xbf &&
          isTail d 0x80 0xbf then
          .char (Char.ofNat (((a.toNat % 8 * 64 + tailBits b) * 64 + tailBits c) * 64 + tailBits d))
            :: scalars rest'
        else .stray a :: scalars (b :: c :: d :: rest')
      | [b, c] =>
        if 0xc2 ≤ a && a ≤ 0xdf && isTail b 0x80 0xbf then
          .char (Char.ofNat (a.toNat % 32 * 64 + tailBits b)) :: scalars [c]
        else if 0xe0 ≤ a && a ≤ 0xef && isTail b low high && isTail c 0x80 0xbf then
          [.char (Char.ofNat ((a.toNat % 16 * 64 + tailBits b) * 64 + tailBits c))]
        else .stray a :: scalars [b, c]
      | [b] =>
        if 0xc2 ≤ a && a ≤ 0xdf && isTail b 0x80 0xbf then
          [.char (Char.ofNat (a.toNat % 32 * 64 + tailBits b))]
        else .stray a :: scalars [b]
      | [] => [.stray a]
termination_by bs => bs.length

/-- The mark that stands for a byte which belongs to no character. -/
def replacement : Char := Char.ofNat 0xfffd

def repair : Scalar → Char
  | .char c => c
  | .stray _ => replacement

def chars (bs : Bytes) : List Char := (scalars bs).map repair

/-- The text of a byte string, stray bytes replaced. -/
def repaired (bs : Bytes) : String := String.ofList (chars bs)

/-- The bytes that were cut into characters and stray bytes. -/
def join (cs : List Scalar) : Bytes :=
  cs.flatMap fun
    | .char c => String.utf8EncodeChar c
    | .stray b => [b]

end Utf8
end PortCodec.Text
