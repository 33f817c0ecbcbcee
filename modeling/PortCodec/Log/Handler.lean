import PortCodec.Log.Record
import PortCodec.Text.Columns
import PortCodec.Text.Quoted

/-!
How records become lines. A console line is made for reading, with values as they are; a line of
pairs can be taken apart again, so that texts are quoted where they have to be.
-/

namespace PortCodec.Log

/-- What all handlers keep: attributes given ahead, and the groups that later keys belong to. -/
structure Scope where
  /-- The names of open groups, each with a dot. -/
  group : String := ""
  attributes : List Attribute := []

def Scope.openGroup (s : Scope) (name : String) : Scope :=
  if name = "" then s else { s with group := s.group ++ name ++ "." }

structure Console where
  level : Level
  color : Bool := false
  scope : Scope := {}

namespace Console

def isEnabled (c : Console) (l : Level) : Bool := c.level.number ≤ l.number

/-- Keeps attributes for all later records, with the open groups before their keys. -/
def withAttributes (c : Console) (more : List Attribute) : Console :=
  { c with scope := { c.scope with
      attributes :=
        c.scope.attributes ++ more.map fun a => { a with key := c.scope.group ++ a.key } } }

def withGroup (c : Console) (name : String) : Console := { c with scope := c.scope.openGroup name }

def escape (code : String) : String := String.ofList [Char.ofNat 27] ++ "[" ++ code ++ "m"

def levelColor (l : Level) : String :=
  if 8 ≤ l.number then "31"
  else if 4 ≤ l.number then "33"
  else if 0 ≤ l.number then "32"
  else if -4 ≤ l.number then "34"
  else "35"

def pair (group : String) (a : Attribute) : Bytes :=
  if a.isEmpty then [] else Bytes.ofString s!" {group}{a.key}=" ++ a.value.render

def line (c : Console) (r : Record) : Bytes :=
  let time := fineTime r.time
  let level := Text.padLeft 5 r.level.shownName
  let head :=
    if c.color then
      escape "90" ++ time ++ escape "0" ++ " " ++ escape (levelColor r.level) ++ level ++ escape "0"
    else time ++ " " ++ level
  Bytes.ofString (head ++ " " ++ r.message) ++ c.scope.attributes.flatMap (pair "") ++
    r.attributes.flatMap (pair c.scope.group) ++ Bytes.ofString "\n"

end Console

structure Pairs where
  level : Level
  scope : Scope := {}
  /-- The pairs of attributes given ahead. -/
  ahead : Bytes := []

namespace Pairs

def isEnabled (p : Pairs) (l : Level) : Bool := p.level.number ≤ l.number

def needsQuotes (s : Bytes) : Bool :=
  s.isEmpty || (Text.Utf8.chars s).any fun c =>
    if c.toNat < 128 then c.toNat ≤ 32 || c = '=' || c = '"'
    else c = Text.Utf8.replacement || Text.isBlank c || !Text.isPrintable c.toNat

def plain (s : Bytes) : Bytes := if needsQuotes s then Text.Quoted.bytes s else s

def key (group name : String) : Bytes :=
  if group = "" then plain name
  else if needsQuotes group || needsQuotes name then Text.Quoted.string (group ++ name)
  else Bytes.ofString (group ++ name)

def value : Value → Bytes
  | .text s => plain s
  | v => v.render

def pair (group : String) (a : Attribute) : Bytes :=
  if a.isEmpty then []
  else Bytes.ofString " " ++ key group a.key ++ Bytes.ofString "=" ++ value a.value

def withAttributes (p : Pairs) (more : List Attribute) : Pairs :=
  { p with ahead := p.ahead ++ more.flatMap (pair p.scope.group) }

def withGroup (p : Pairs) (name : String) : Pairs := { p with scope := p.scope.openGroup name }

/-- Time, level and message as pairs, then the attributes. A record without a time has no such
pair. -/
def line (p : Pairs) (r : Record) : Bytes :=
  let time := if r.time = zeroTime then "" else s!"time={coarseTime r.time} "
  Bytes.ofString s!"{time}level={r.level.name} msg=" ++ plain r.message ++ p.ahead ++
    r.attributes.flatMap (pair p.scope.group) ++ Bytes.ofString "\n"

end Pairs
end PortCodec.Log
