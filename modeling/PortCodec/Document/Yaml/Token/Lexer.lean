import PortCodec.Document.Yaml.Scalar
import PortCodec.Document.Yaml.Token.Tag

/-!
From characters to tokens. Blocks are found by indentation, and a scalar turns out to be a key only
when its colon is met, so tokens wait in a queue where a key mark can still be put before them.
-/

namespace PortCodec.Document.Yaml

/-- The place where a collection may have a key that is still without its colon, and the number of
the token that comes first there. A key is required where the indentation admits nothing else. -/
structure KeyPlace where
  possible : Bool := false
  required : Bool := false
  number : Nat := 0
  mark : Mark := {}

structure Lexer where
  cursor : Cursor
  started : Bool := false
  /-- How many flow collections are open. -/
  flow : Nat := 0
  indent : Int := -1
  indents : List Int := []
  keyAllowed : Bool := false
  /-- The key place of each open flow collection, innermost first, then that of the blocks. -/
  keys : List KeyPlace := []
  /-- The numbers of tokens that are held back, each with the depth of the collection whose key
  decides about it. -/
  held : List (Nat × Nat) := []
  queue : List Token := []
  /-- How many tokens have left the queue. -/
  taken : Nat := 0

namespace Lexer

def ofInput (i : Input) : Lexer := { cursor := .ofInput i }

def mark (l : Lexer) : Mark := l.cursor.mark

def push (l : Lexer) (s : Symbol) (m : Mark) : Lexer := { l with queue := l.queue ++ [⟨s, m⟩] }

/-- Puts a token before the one of the given number, or behind all others if that one has left. -/
def insert (l : Lexer) (number : Nat) (s : Symbol) (m : Mark) : Lexer :=
  if number < l.taken then l.push s m
  else
    let i := number - l.taken
    { l with queue := l.queue.take i ++ ⟨s, m⟩ :: l.queue.drop i }

def number (l : Lexer) : Nat := l.taken + l.queue.length

/-- No longer holds back the token of a number. -/
def release (l : Lexer) (number : Nat) : Lexer :=
  { l with held := l.held.filter fun h => h.1 ≠ number }

/-- Whether a key can still end here: on its line and within 1024 characters. A required key that
cannot is a fault. -/
def isOpen (l : Lexer) (k : KeyPlace) : Except Fault Bool :=
  if !k.possible then .ok false
  else if k.mark.line < l.mark.line || k.mark.index + 1024 < l.mark.index then
    if k.required then .error .malformed else .ok false
  else .ok true

/-- Gives up the possible key of the innermost collection, a fault if it is required. -/
def dropKey (l : Lexer) : Except Fault Lexer :=
  match l.keys with
  | k :: rest =>
    if !k.possible then .ok l
    else if k.required then .error .malformed
    else .ok { l.release k.number with keys := { k with possible := false } :: rest }
  | [] => .ok l

def saveKey (l : Lexer) : Except Fault Lexer :=
  if l.keyAllowed then do
    let k : KeyPlace :=
      { possible := true
        required := l.flow = 0 && l.indent = l.mark.column
        number := l.number
        mark := l.mark }
    let l ← l.dropKey
    return { l with keys := k :: l.keys.tail, held := (k.number, l.flow) :: l.held }
  else .ok l

/-- Opens a block at a column deeper than the current indentation. -/
def rollIndent (l : Lexer) (column : Nat) (number : Option Nat) (s : Symbol) (m : Mark) :
    Except Fault Lexer :=
  if l.flow = 0 && l.indent < column then
    if 10000 ≤ l.indents.length then .error .malformed
    else
      let l := { l with indents := l.indent :: l.indents, indent := column }
      .ok (match number with
        | some n => l.insert n s m
        | none => l.push s m)
  else .ok l

/-- Closes the blocks deeper than a column. -/
def unrollIndent (l : Lexer) (column : Int) : Lexer :=
  if l.flow = 0 then go l l.indents else l
where
  go (l : Lexer) : List Int → Lexer
    | [] => l
    | outer :: rest =>
      if column < l.indent then
        go { l.push .blockEnd l.mark with indent := outer, indents := rest } rest
      else l

/-- How far ahead comments are looked for. -/
def commentReach : Nat := 512

/-- The distance from a line's end to a comment on one of the next lines, with nothing but blanks
and line ends of one byte between them. -/
def commentAhead? (c : Cursor) : Option Nat :=
  let isGap (ch : Char) : Bool := isBlank ch || ch = '\n' || ch = '\r'
  let gap := (c.text.take commentReach).takeWhile isGap
  if gap.isEmpty || commentReach ≤ gap.length then none
  else if (c.text.drop gap.length).head? = some '#' then some gap.length else none

/-- The number of characters that are looked at in search of a comment behind a line's end. -/
def commentSearch (c : Cursor) : Nat :=
  let isGap (ch : Char) : Bool := isBlank ch || isBreak ch
  min commentReach (((c.text.take commentReach).takeWhile isGap).length + 1)

def passTo (index : Nat) : (fuel : Nat) → Cursor → Except Fault Cursor
  | 0, c => .ok c
  | fuel + 1, c => do
    let c ← c.need 1
    if index ≤ c.mark.index then return c
    else if c.head?.any isBreak then passTo index fuel (← c.takeLine)
    else passTo index fuel c.skip

/-- Passes over a comment and the comments on the lines behind it. -/
def skipComments : (fuel : Nat) → Cursor → Except Fault Cursor
  | 0, c => .ok c
  | fuel + 1, c => do
    let c ← c.skipToBreak
    let c ← c.needUpTo (max 2 (commentSearch c))
    match commentAhead? c with
    | some n => skipComments fuel (← passTo (c.mark.index + n) (n + 1) c)
    | none => return c

/-- Passes over blanks, comments and line ends. In a block a new line may start a key. A tab is a
blank only where no key may start. -/
def toNextToken : (fuel : Nat) → Lexer → Except Fault Lexer
  | 0, l => .ok l
  | fuel + 1, l => do
    let c ← l.cursor.need 1
    let c := if c.mark.column = 0 && c.marked then c.skip else c
    let c ← c.skipWhile fun ch => ch = ' ' || ((0 < l.flow || !l.keyAllowed) && ch = '\t')
    let c ← if c.head? = some '#' then skipComments (c.size + 1) c else pure c
    if c.head?.any isBreak then
      toNextToken fuel { l with cursor := ← c.takeLine, keyAllowed := l.keyAllowed || l.flow = 0 }
    else return { l with cursor := c }

def skipLineComment (l : Lexer) : Except Fault Lexer :=
  let blanks := ((l.cursor.text.take commentReach).takeWhile isBlank).length
  if l.cursor.lineEnded then .ok l
  else do
    let c ← l.cursor.needUpTo (min commentReach (blanks + 1))
    if blanks < commentReach && (c.text.drop blanks).head? = some '#' then
      return { l with cursor := ← (← passTo (c.mark.index + blanks) (blanks + 1) c).skipToBreak }
    else return { l with cursor := c }

def accept (l : Lexer) (s : Symbol) (n : Nat := 1) : Lexer :=
  { l.push s l.mark with cursor := l.cursor.skipMany n }

/-- Closes all blocks, as a document's marks and the end do. -/
def closeBlocks (l : Lexer) : Except Fault Lexer := do
  let l ← (l.unrollIndent (-1)).dropKey
  return { l with keyAllowed := false }

def fetchEnd (l : Lexer) : Except Fault Lexer := do
  let m := l.mark
  let m := if m.column = 0 then m else { m with line := m.line + 1, column := 0 }
  let l ← { l with cursor := { l.cursor with mark := m } }.closeBlocks
  return l.push .streamEnd l.mark

def fetchFlowStart (l : Lexer) (s : Symbol) : Except Fault Lexer := do
  let l ← l.saveKey
  if 10000 ≤ l.flow then .error .malformed
  else
    return { l.accept s with
      flow := l.flow + 1, keys := { number := l.number } :: l.keys, keyAllowed := true }

/-- Leaves a flow collection. In one without a key of its own the last key place is that of the
opening bracket, which is therefore no longer held back. -/
def closeFlow (l : Lexer) : Lexer :=
  match l.keys with
  | k :: rest =>
    if 0 < l.flow then { l.release k.number with flow := l.flow - 1, keys := rest } else l
  | [] => l

def fetchFlowEnd (l : Lexer) (s : Symbol) : Except Fault Lexer := do
  let l ← l.dropKey
  return { l.closeFlow.accept s with keyAllowed := false }

def fetchFlowEntry (l : Lexer) : Except Fault Lexer := do
  let l ← l.dropKey
  return { l.accept .flowEntry with keyAllowed := true }

def fetchBlockEntry (l : Lexer) : Except Fault Lexer := do
  if l.flow = 0 && !l.keyAllowed then .error .malformed
  let l ← l.rollIndent l.mark.column none .blockSequence l.mark
  let l ← l.dropKey
  return { l.accept .blockEntry with keyAllowed := true }

def fetchKey (l : Lexer) : Except Fault Lexer := do
  if l.flow = 0 && !l.keyAllowed then .error .malformed
  let l ← l.rollIndent l.mark.column none .blockMapping l.mark
  let l ← l.dropKey
  return { l.accept .key with keyAllowed := l.flow = 0 }

/-- A colon: what waits in the queue since the possible key is the key. -/
def fetchValue (l : Lexer) : Except Fault Lexer := do
  match l.keys with
  | k :: rest =>
    let keys := { k with possible := false } :: rest
    if ← l.isOpen k then
      let l ← (l.insert k.number .key k.mark).rollIndent k.mark.column (some k.number)
        .blockMapping k.mark
      return { (l.release k.number).accept .value with keys, keyAllowed := false }
    else complex { l with keys }
  | [] => complex l
where
  complex (l : Lexer) : Except Fault Lexer := do
    if l.flow = 0 && !l.keyAllowed then .error .malformed
    let l ← l.rollIndent l.mark.column none .blockMapping l.mark
    return { l.accept .value with keyAllowed := l.flow = 0 }

/-- Takes what a reader of the cursor finds, where a key may start. -/
def fetchWith (l : Lexer) (f : Cursor → Except Fault (Symbol × Cursor)) : Except Fault Lexer := do
  let l ← l.saveKey
  let (s, c) ← f l.cursor
  return { l.push s l.mark with cursor := c, keyAllowed := false }

def fetchBlockScalar (l : Lexer) (folding : Bool) : Except Fault Lexer := do
  let l ← l.dropKey
  let (text, c) ← Scalar.block folding l.indent l.cursor.skip
  let l := l.push (.scalar (String.ofList text) .block) l.mark
  return { l with cursor := c, keyAllowed := true }

def fetchQuoted (l : Lexer) (quote : Char) : Except Fault Lexer :=
  l.fetchWith fun c => do
    let (text, c) ← Scalar.quoted quote (c.size + 1) c.skip
    return (.scalar (String.ofList text) .quoted, c)

def fetchPlain (l : Lexer) : Except Fault Lexer := do
  let l ← l.saveKey
  let (text, folded, c) ←
    Scalar.plain (0 < l.flow) (l.indent + 1).toNat (l.cursor.size + 1) {} l.cursor
  let l := l.push (.scalar (String.ofList text) .plain) l.mark
  return { l with cursor := c, keyAllowed := folded }

/-- Marks that no plain scalar starts with. -/
def isIndicator (c : Char) : Bool :=
  ['-', '?', ':', ',', '[', ']', '\x7b', '\x7d', '#', '&', '*', '!', '|', '>', '\'', '"', '%', '@',
    '\x60'].contains c

/-- Whether a plain scalar starts with a character before the rest of a text. -/
def startsPlain (flow : Bool) (c : Char) (rest : List Char) : Bool :=
  !(isBlank c || isBreak c || isIndicator c) ||
  (c = '-' && !(rest.head?.any isBlank)) ||
  (!flow && (c = '?' || c = ':') && !blankAhead rest)

/-- Takes one token, behind which a comment on its line is passed over. -/
def fetchToken (l : Lexer) (c : Char) (rest : List Char) : Except Fault Lexer :=
  let flow := 0 < l.flow
  if c = '[' then l.fetchFlowStart .flowSequence
  else if c = '\x7b' then l.fetchFlowStart .flowMapping
  else if c = ']' then l.fetchFlowEnd .flowSequenceEnd
  else if c = '\x7d' then l.fetchFlowEnd .flowMappingEnd
  else if c = ',' then l.fetchFlowEntry
  else if c = '?' && (flow || blankAhead rest) then l.fetchKey
  else if c = ':' && (flow || blankAhead rest) then l.fetchValue
  else if c = '*' then l.fetchWith fun c => do
    let (name, c) ← Token.scanName c.skip
    return (.reference name, c)
  else if c = '&' then l.fetchWith fun c => do
    let (name, c) ← Token.scanName c.skip
    return (.anchor name, c)
  else if c = '!' then l.fetchWith Token.scanTag
  else if c = '|' && !flow then l.fetchBlockScalar false
  else if c = '>' && !flow then l.fetchBlockScalar true
  else if c = '\'' || c = '"' then l.fetchQuoted c
  else if startsPlain flow c rest then l.fetchPlain
  else .error .malformed

/-- Takes the next token, and the ends of the blocks before it. -/
def fetch (l : Lexer) : Except Fault Lexer := do
  if !l.started then
    return { l.push .streamStart l.mark with
      cursor := ← l.cursor.need 1, started := true, keyAllowed := true, keys := [{}] }
  else do
    let l ← toNextToken (l.cursor.size + 1) { l with cursor := ← l.cursor.need 1 }
    let l := l.unrollIndent l.mark.column
    let l := { l with cursor := ← l.cursor.need 4 }
    match l.cursor.text with
    | [] => l.fetchEnd
    | c :: rest =>
      if l.mark.column = 0 && c = '%' then do
        let l ← l.closeBlocks
        let (s, after) ← Token.scanDirective l.cursor
        return { l.push s l.mark with cursor := after }
      else if l.mark.column = 0 && documentMark (c :: rest) then do
        let l ← l.closeBlocks
        return l.accept (if c = '-' then .documentStart else .documentEnd) 3
      else if c = '-' && blankAhead rest then l.fetchBlockEntry
      else do (← l.fetchToken c rest).skipLineComment

/-- Whether the token at the head may still turn out to be a key. -/
def headPending (l : Lexer) : Except Fault Bool :=
  match l.held.find? fun h => h.1 = l.taken with
  | some (_, depth) =>
    match l.keys[l.flow - depth]? with
    | some k => l.isOpen k
    | none => .ok false
  | none => .ok false

/-- Fills the queue until its head is settled and two more tokens stand behind it. -/
def fill : (fuel : Nat) → Lexer → Except Fault Lexer
  | 0, _ => .error .malformed
  | fuel + 1, l => do
    let pending ← if l.queue.length ≤ 2 then pure true else l.headPending
    if pending then fill fuel (← l.fetch) else return l

def peek (l : Lexer) : Except Fault (Token × Lexer) := do
  let l ← fill (l.cursor.size + 8) l
  match l.queue with
  | t :: _ => return (t, l)
  | [] => .error .malformed

def skip (l : Lexer) : Lexer :=
  { l.release l.taken with queue := l.queue.tail, taken := l.taken + 1 }

end Lexer

end PortCodec.Document.Yaml
