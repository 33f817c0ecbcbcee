import PortCodec.Decimal.Numeral
import PortCodec.Document.Yaml.Token.Tag

/-!
The texts of scalars: plain, quoted and block scalars, with their rules for joining lines.
-/

namespace PortCodec.Document.Yaml.Scalar

/-- What stands between two words: blanks of one line, or line ends. -/
structure Gap where
  blanks : List Char := []
  folded : Bool := false
  lead : List Char := []
  trail : List Char := []

/-- What a gap contributes to the text. A single line end becomes a blank, further ones stay. -/
def Gap.text (g : Gap) : List Char :=
  if g.folded then
    if g.lead = ['\n'] then (if g.trail.isEmpty then [' '] else g.trail) else g.lead ++ g.trail
  else g.blanks

def Gap.addBreak (g : Gap) (c : Char) : Gap :=
  if g.folded then { g with trail := g.trail ++ [breakText c] }
  else { g with blanks := [], folded := true, lead := [breakText c] }

/-- Takes blanks and line ends. A tab left of `indent` is a fault on a line of its own. -/
def takeGap (indent : Option Nat) :
    (fuel : Nat) → Gap → Cursor → Except Fault (Gap × Cursor)
  | 0, _, _ => .error .malformed
  | fuel + 1, g, c => do
    let c ← c.need 1
    match c.head? with
    | none => return (g, c)
    | some ch =>
      if isBlank ch then
        if g.folded && ch = '\t' &&
            (match indent with | some n => c.mark.column < n | none => false) then
          .error .malformed
        else if g.folded then takeGap indent fuel g c.skip
        else takeGap indent fuel { g with blanks := g.blanks ++ [ch] } c.skip
      else if isBreak ch then takeGap indent fuel (g.addBreak ch) (← c.takeLine)
      else return (g, c)

def isFlowMark (c : Char) : Bool :=
  c = ',' || c = '?' || c = '[' || c = ']' || c = '\x7b' || c = '\x7d'

/-- Takes the characters of a plain scalar up to a blank or a mark that ends it. -/
def plainWord (flow : Bool) (c : Cursor) : Except Fault (List Char × Cursor) :=
  go c.text c
where
  go : List Char → Cursor → Except Fault (List Char × Cursor)
    | [], c => .ok ([], c)
    | ch :: rest, c =>
      if isBlank ch || isBreak ch || (ch = ':' && blankAhead rest) || (flow && isFlowMark ch) then
        .ok ([], c)
      else do
        let (w, after) ← go rest (← c.skip.need 2)
        return (ch :: w, after)

/-- A plain scalar, and whether line ends were passed behind it. Each round uses up text, so fuel
beyond its length is never missed. -/
def plain (flow : Bool) (indent : Nat) :
    (fuel : Nat) → Gap → Cursor → Except Fault (List Char × Bool × Cursor)
  | 0, _, _ => .error .malformed
  | fuel + 1, g, c => do
    let c ← c.need 4
    if (c.mark.column = 0 && documentMark c.text) || c.head? = some '#' then
      return ([], g.folded, c)
    else
      let (word, c) ← plainWord flow c
      let before := if word.isEmpty then [] else g.text
      let g := if word.isEmpty then g else {}
      if c.atEnd || !blankAhead c.text then return (before ++ word, g.folded, c)
      else
        let (g, c) ← takeGap (some indent) (c.size + 1) g c
        if !flow && c.mark.column < indent then return (before ++ word, g.folded, c)
        else
          let (rest, folded, c) ← plain flow indent fuel g c
          return (before ++ word ++ rest, folded, c)

def escape? (c : Char) : Option Char :=
  match c with
  | '0' => some (Char.ofNat 0)
  | 'a' => some (Char.ofNat 7)
  | 'b' => some (Char.ofNat 8)
  | 't' => some '\t'
  | '\t' => some '\t'
  | 'n' => some '\n'
  | 'v' => some (Char.ofNat 11)
  | 'f' => some (Char.ofNat 12)
  | 'r' => some '\r'
  | 'e' => some (Char.ofNat 27)
  | ' ' => some ' '
  | '"' => some '"'
  | '\'' => some '\''
  | '\\' => some '\\'
  | 'N' => some (Char.ofNat 0x85)
  | '_' => some (Char.ofNat 0xa0)
  | 'L' => some (Char.ofNat 0x2028)
  | 'P' => some (Char.ofNat 0x2029)
  | _ => none

def escapeDigits (c : Char) : Option Nat :=
  match c with
  | 'x' => some 2
  | 'u' => some 4
  | 'U' => some 8
  | _ => none

def hexChar? (ds : List Char) : Option Char :=
  match Decimal.unsigned? 16 ds with
  | some n => if n.isValidChar then some (Char.ofNat n) else none
  | none => none

/-- Takes a word of a double-quoted scalar. The flag tells an escaped line end behind it. -/
def doubleWord : (fuel : Nat) → Cursor → Except Fault (List Char × Bool × Cursor)
  | 0, _ => .error .malformed
  | fuel + 1, c =>
    match c.text with
    | [] => .ok ([], false, c)
    | '\\' :: e :: rest =>
      if isBreak e then do
        let c ← c.need 3
        return ([], true, c.skip.skipLine)
      else match escapeDigits e with
        | some n => do
          let c ← (c.skipMany 2).need n
          match hexChar? (rest.take n) with
          | some ch =>
            if (rest.take n).length = n then do
              let (w, b, after) ← doubleWord fuel (← (c.skipMany n).need 2)
              return (ch :: w, b, after)
            else .error .malformed
          | none => .error .malformed
        | none =>
          match escape? e with
          | some ch => do
            let (w, b, after) ← doubleWord fuel (← (c.skipMany 2).need 2)
            return (ch :: w, b, after)
          | none => .error .malformed
    | ['\\'] => .error .malformed
    | ch :: rest =>
      if ch = '"' || blankAhead (ch :: rest) then .ok ([], false, c)
      else do
        let (w, b, after) ← doubleWord fuel (← c.skip.need 2)
        return (ch :: w, b, after)

/-- Takes a word of a single-quoted scalar; two quotes stand for one. -/
def singleWord : (fuel : Nat) → Cursor → Except Fault (List Char × Cursor)
  | 0, _ => .error .malformed
  | fuel + 1, c =>
    match c.text with
    | [] => .ok ([], c)
    | '\'' :: '\'' :: _ => do
      let (w, after) ← singleWord fuel (← (c.skipMany 2).need 2)
      return ('\'' :: w, after)
    | ch :: _ =>
      if ch = '\'' || isBlank ch || isBreak ch then .ok ([], c)
      else do
        let (w, after) ← singleWord fuel (← c.skip.need 2)
        return (ch :: w, after)

/-- A quoted scalar from behind its first quote to behind its last. -/
def quoted (quote : Char) : (fuel : Nat) → Cursor → Except Fault (List Char × Cursor)
  | 0, _ => .error .malformed
  | fuel + 1, c => do
    let c ← c.need 4
    if (c.mark.column = 0 && documentMark c.text) || c.atEnd then .error .malformed
    else
      let (word, escaped, c) ←
        if quote = '"' then doubleWord (c.size + 1) c
        else do
          let (w, c) ← singleWord (c.size + 1) c
          pure (w, false, c)
      let c ← c.need 1
      if c.head? = some quote then return (word, c.skip)
      else
        let (g, c) ← takeGap none (c.size + 1) { folded := escaped } c
        let (rest, c) ← quoted quote fuel c
        return (word ++ g.text ++ rest, c)

/-- What happens to line ends behind the text of a block scalar. -/
inductive Chomping
  | strip
  | clip
  | keep
  deriving DecidableEq

def chomping? (c : Char) : Option Chomping :=
  if c = '+' then some .keep else if c = '-' then some .strip else none

/-- The marks behind the start of a block scalar: chomping and a digit for the indentation, in
either order. -/
def blockHeader (c : Cursor) : Except Fault (Chomping × Nat × Cursor) := do
  let digit (c : Cursor) : Except Fault (Nat × Cursor) :=
    match c.head? with
    | some d =>
      if d = '0' then .error .malformed
      else if Decimal.isDigit d then .ok (d.toNat - 48, c.skip)
      else .ok (0, c)
    | none => .ok (0, c)
  let c ← c.need 1
  match c.head?.bind chomping? with
  | some ch =>
    let (n, c) ← digit (← c.skip.need 1)
    return (ch, n, c)
  | none =>
    let (n, c) ← digit c
    let c ← if n = 0 then pure c else c.need 1
    match c.head?.bind chomping? with
    | some ch => if n = 0 then return (.clip, n, c) else return (ch, n, c.skip)
    | none => return (.clip, n, c)

/-- Takes blanks up to a column, or all if none is given. -/
def takeIndent (limit : Option Nat) : (fuel : Nat) → Cursor → Except Fault Cursor
  | 0, _ => .error .malformed
  | fuel + 1, c => do
    let c ← c.need 1
    if limit.all (c.mark.column < ·) && c.head? = some ' ' then takeIndent limit fuel c.skip
    else return c

/-- Takes indentation and empty lines: the line ends, the widest indentation, what follows. An
`indent` of zero is not known yet. -/
def blockBreaks (indent : Nat) :
    (fuel : Nat) → (widest : Nat) → Cursor → Except Fault (List Char × Nat × Cursor)
  | 0, _, _ => .error .malformed
  | fuel + 1, widest, c => do
    let c ← takeIndent (if indent = 0 then none else some indent) (c.size + 1) c
    let widest := max widest c.mark.column
    if (indent = 0 || c.mark.column < indent) && c.head? = some '\t' then .error .malformed
    match c.head? with
    | some ch =>
      if isBreak ch then
        let (breaks, widest, c) ← blockBreaks indent fuel widest (← c.takeLine)
        return (breakText ch :: breaks, widest, c)
      else return ([], widest, c)
    | none => return ([], widest, c)

/-- The lines of a block scalar. `lead` is the line end before the current line, `trail` the empty
lines behind that, and `blank` says whether the line before started with a blank. -/
def blockLines (folding : Bool) (chomping : Chomping) (indent : Nat) :
    (fuel : Nat) → (lead trail : List Char) → (blank : Bool) → Cursor → Except Fault
    (List Char × Cursor)
  | 0, _, _, _, _ => .error .malformed
  | fuel + 1, lead, trail, blank, c =>
    if c.mark.column = indent && !c.atEnd then do
      let starts := c.head?.any isBlank
      let before :=
        if folding && !blank && !starts && lead = ['\n'] then (if trail.isEmpty then [' '] else [])
        else lead
      let (line, c) ← c.span fun ch => !isBreak ch
      let next := match c.head? with
        | some ch => [breakText ch]
        | none => []
      let c ← c.takeLine
      let (breaks, _, c) ← blockBreaks indent (c.size + 1) 0 c
      let (rest, c) ← blockLines folding chomping indent fuel next breaks starts c
      return (before ++ trail ++ line ++ rest, c)
    else
      let tail := match chomping with
        | .strip => []
        | .clip => lead
        | .keep => lead ++ trail
      .ok (tail, c)

/-- A block scalar from behind its mark, inside a block of indentation `parent`. -/
def block (folding : Bool) (parent : Int) (c : Cursor) : Except Fault (List Char × Cursor) := do
  let (chomping, increment, c) ← blockHeader c
  let c ← Token.restOfLine c
  let given :=
    if increment = 0 then 0 else if 0 ≤ parent then parent.toNat + increment else increment
  let (breaks, widest, c) ← blockBreaks given (c.size + 1) 0 c
  let indent := if given = 0 then max (max widest (parent + 1).toNat) 1 else given
  blockLines folding chomping indent (c.size + 1) [] breaks false c

end PortCodec.Document.Yaml.Scalar
