/-!
The tokens of a YAML document, with the place where each starts.
-/

namespace PortCodec.Document.Yaml

/-- A place in a document, counted from zero. -/
structure Mark where
  index : Nat := 0
  line : Nat := 0
  column : Nat := 0
  deriving DecidableEq

inductive Fault
  | malformed
  /-- The text of a scalar that does not fit its tag, and the end of the sentence about it. -/
  | mistagged (text : String)
  /-- A mapping has keys that cannot be told from those of one that it is merged into. -/
  | incomparable

inductive Style
  | plain
  | quoted
  | block
  deriving DecidableEq

inductive Symbol
  | streamStart
  | streamEnd
  | versionDirective (major minor : Nat)
  | tagDirective (handle tagStart : String)
  | documentStart
  | documentEnd
  | blockSequence
  | blockMapping
  | blockEnd
  | flowSequence
  | flowSequenceEnd
  | flowMapping
  | flowMappingEnd
  | blockEntry
  | flowEntry
  | key
  | value
  | reference (name : String)
  | anchor (name : String)
  | tag (handle suffix : String)
  | scalar (text : String) (style : Style)
  deriving DecidableEq

structure Token where
  symbol : Symbol
  mark : Mark

def isBreak (c : Char) : Bool :=
  c = '\n' || c = '\r' || c.toNat = 0x85 || c.toNat = 0x2028 || c.toNat = 0x2029

def isBlank (c : Char) : Bool := c = ' ' || c = '\t'

/-- Whether a text starts with a blank or a line end, or is at its end. -/
def blankAhead : List Char → Bool
  | [] => true
  | c :: _ => isBlank c || isBreak c

def isWordChar (c : Char) : Bool := c.isAlphanum || c = '_' || c = '-'

def documentMark (cs : List Char) : Bool :=
  match cs with
  | '-' :: '-' :: '-' :: rest => blankAhead rest
  | '.' :: '.' :: '.' :: rest => blankAhead rest
  | _ => false

namespace Mark

def next (m : Mark) (n : Nat := 1) : Mark := { m with index := m.index + n, column := m.column + n }

def nextLine (m : Mark) (n : Nat := 1) : Mark :=
  { index := m.index + n, line := m.line + 1, column := 0 }

end Mark

/-- The text of a line end: separators of lines and paragraphs stay, the others become one. -/
def breakText (c : Char) : Char :=
  if c.toNat = 0x2028 ∨ c.toNat = 0x2029 then c else '\n'

end PortCodec.Document.Yaml
