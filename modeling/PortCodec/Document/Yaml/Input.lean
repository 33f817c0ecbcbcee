import PortCodec.Text.Utf8

/-!
A document as it comes in. Its bytes are read piece by piece, and a piece is turned into characters
as a whole; one that cannot be read is a fault only for a reader who gets to it.
-/

namespace PortCodec.Document.Yaml

/-- The characters of a document up to the first piece that cannot be read. -/
structure Input where
  chars : List Char := []
  /-- How many characters there are up to the end of each piece. -/
  ends : List Nat := []
  /-- Whether more follows that cannot be read. -/
  damaged : Bool := false

namespace Input

def isAllowed (c : Char) : Bool :=
  let n := c.toNat
  n = 9 || n = 10 || n = 13 || (0x20 ≤ n && n ≤ 0x7e) || n = 0x85 ||
    (0xa0 ≤ n && n ≤ 0xfffd) || 0x10000 ≤ n

inductive Head
  | char (c : Char) (width : Nat)
  | incomplete
  | invalid

def allowed (c : Char) (width : Nat) : Head := if isAllowed c then .char c width else .invalid

def headUtf8 (bs : Bytes) : Head :=
  match bs.head?.bind Text.Utf8.announced? with
  | none => .invalid
  | some width =>
    if (bs.take width).length < width then .incomplete
    else match Text.Utf8.scalars (bs.take width) with
      | [.char c] => allowed c width
      | _ => .invalid

/-- The head of a text in units of 16 bits; some characters take two. -/
def headUnits (join : Nat → Nat → Nat) : Bytes → Head
  | a :: b :: rest =>
    let u := join a.toNat b.toNat
    if 0xdc00 ≤ u ∧ u < 0xe000 then .invalid
    else if 0xd800 ≤ u ∧ u < 0xdc00 then
      match rest with
      | c :: d :: _ =>
        let v := join c.toNat d.toNat
        if 0xdc00 ≤ v ∧ v < 0xe000 then
          allowed (Char.ofNat (0x10000 + (u - 0xd800) * 1024 + (v - 0xdc00))) 4
        else .invalid
      | _ => .incomplete
    else allowed (Char.ofNat u) 2
  | _ => .incomplete

/-- The characters of a piece, last one first, and the bytes of one that goes on behind it. -/
def piece? (head : Bytes → Head) :
    (fuel : Nat) → (done : List Char) → Bytes → Option (List Char × Bytes)
  | 0, done, bs => some (done, bs)
  | _, done, [] => some (done, [])
  | fuel + 1, done, bs =>
    match head bs with
    | .char c width => piece? head fuel (c :: done) (bs.drop width)
    | .incomplete => some (done, bs)
    | .invalid => none

def pieceSize : Nat := 512

/-- Reads pieces. What one leaves over starts the next. Characters and ends are collected last one
first. -/
def readAll (head : Bytes → Head) :
    (fuel : Nat) → (chars : List Char) → (ends : List Nat) → (piece rest : Bytes) → Input
  | 0, chars, ends, _, _ => { chars := chars.reverse, ends := ends.reverse }
  | fuel + 1, chars, ends, piece, rest =>
    match piece? head pieceSize [] piece with
    | none => { chars := chars.reverse, ends := ends.reverse, damaged := true }
    | some (more, left) =>
      if more.isEmpty then
        { chars := chars.reverse, ends := ends.reverse, damaged := !left.isEmpty }
      else
        let room := pieceSize - left.length
        readAll head fuel (more ++ chars) ((ends.headD 0 + more.length) :: ends)
          (left ++ rest.take room) (rest.drop room)

/-- A document in the encoding that its byte order mark names. The mark is part of the first
piece. -/
def ofBytes (document : Bytes) : Input :=
  let first := document.take pieceSize
  let read (head : Bytes → Head) (markSize : Nat) : Input :=
    readAll head (document.length + 1) [] [] (first.drop markSize) (document.drop pieceSize)
  match document with
  | 0xff :: 0xfe :: _ => read (headUnits fun a b => a + 256 * b) 2
  | 0xfe :: 0xff :: _ => read (headUnits fun a b => 256 * a + b) 2
  | 0xef :: 0xbb :: 0xbf :: _ => read headUtf8 3
  | _ => read headUtf8 0

end Input
end PortCodec.Document.Yaml
