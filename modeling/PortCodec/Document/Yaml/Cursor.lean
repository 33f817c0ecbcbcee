import PortCodec.Document.Yaml.Input
import PortCodec.Document.Yaml.Token

/-!
A place in a document and what is at hand there. Characters have to be asked for before they are
looked at; asking past the end of a damaged document is a fault.
-/

namespace PortCodec.Document.Yaml

structure Cursor where
  /-- What is left of the document. -/
  text : List Char
  /-- The length of the whole document, which no walk through it exceeds. -/
  size : Nat := text.length
  mark : Mark := {}
  /-- The index up to which characters are at hand. -/
  loaded : Nat := 0
  /-- The indices where the further pieces end. -/
  pieces : List Nat := []
  damaged : Bool := false
  /-- Whether there was a byte order mark here when characters were last added. -/
  marked : Bool := false
  /-- Whether a line has ended behind the last character that is no blank. -/
  lineEnded : Bool := false

def byteOrderMark : Char := Char.ofNat 0xfeff

namespace Cursor

def ofInput (i : Input) : Cursor := { text := i.chars, pieces := i.ends, damaged := i.damaged }

/-- Loads pieces up to an index. Behind the last one, the end takes a place of its own. -/
def load (wanted : Nat) : (loaded : Nat) → List Nat → Nat × List Nat
  | loaded, [] => (loaded + 1, [])
  | _, e :: rest => if wanted ≤ e then (e, rest) else load wanted e rest

def need (c : Cursor) (n : Nat) : Except Fault Cursor :=
  if c.mark.index + n ≤ c.loaded then .ok c
  else if c.damaged && (c.text.take n).length < n then .error .malformed
  else
    let (loaded, pieces) := load (c.mark.index + n) c.loaded c.pieces
    .ok { c with loaded, pieces, marked := c.text.head? = some byteOrderMark }

/-- Asks for more characters one by one, up to `n`. -/
def needUpTo (c : Cursor) (n : Nat) : Except Fault Cursor :=
  (List.range n).foldlM (fun c k => c.need (k + 1)) c

def head? (c : Cursor) : Option Char := c.text.head?

def atEnd (c : Cursor) : Bool := c.text.isEmpty

def skip (c : Cursor) : Cursor :=
  { c with
    text := c.text.drop 1, mark := c.mark.next
    lineEnded := c.lineEnded && c.text.head?.any isBlank }

def skipMany : (n : Nat) → Cursor → Cursor
  | 0, c => c
  | n + 1, c => skipMany n c.skip

def skipLine (c : Cursor) : Cursor :=
  match c.text with
  | '\r' :: '\n' :: rest => { c with text := rest, mark := c.mark.nextLine 2, lineEnded := true }
  | ch :: rest =>
    if isBreak ch then { c with text := rest, mark := c.mark.nextLine, lineEnded := true } else c
  | [] => c

/-- Splits off the characters that satisfy a test, and asks for one more each time. -/
def span (c : Cursor) (p : Char → Bool) : Except Fault (List Char × Cursor) :=
  go c.text c
where
  go : List Char → Cursor → Except Fault (List Char × Cursor)
    | [], c => do return ([], ← c.need 1)
    | ch :: rest, c => do
      let c ← c.need 1
      if p ch then
        let (taken, c) ← go rest c.skip
        return (ch :: taken, c)
      else return ([], c)

def skipWhile (c : Cursor) (p : Char → Bool) : Except Fault Cursor := do return (← c.span p).2

def skipToBreak (c : Cursor) : Except Fault Cursor := c.skipWhile fun ch => !isBreak ch

def takeLine (c : Cursor) : Except Fault Cursor := do return (← c.need 2).skipLine

end Cursor
end PortCodec.Document.Yaml
