import PortCodec.Decimal.Numeral
import PortCodec.Document.Yaml.Cursor

/-!
Tags, anchors and directives: the tokens that start with `!`, `&`, `*` and `%`.
-/

namespace PortCodec.Document.Yaml.Token

def isTagChar (c : Char) : Bool :=
  isWordChar c || [';', '/', '?', ':', '@', '&', '=', '+', '$', ',', '.', '!', '~', '*', '\'', '(',
    ')', '[', ']'].contains c

def escapedByte? (a b : Char) : Option UInt8 :=
  match Decimal.charValue? a, Decimal.charValue? b with
  | some x, some y => if x < 16 ∧ y < 16 then some (UInt8.ofNat (16 * x + y)) else none
  | _, _ => none

/-- Takes the bytes of a character written with percent signs. The first tells how many there are;
nothing else is asked of them but that they have the right form. -/
def escapedBytes (c : Cursor) : Except Fault (Bytes × Cursor) := do
  let (lead, c) ← escaped c
  match Text.Utf8.announced? lead with
  | none => .error .malformed
  | some n =>
    let (tail, c) ← tails (n - 1) c
    return (lead :: tail, c)
where
  escaped (c : Cursor) : Except Fault (UInt8 × Cursor) := do
    let c ← c.need 3
    match c.text with
    | '%' :: a :: b :: _ => match escapedByte? a b with
      | some x => return (x, c.skipMany 3)
      | none => .error .malformed
    | _ => .error .malformed
  tails : Nat → Cursor → Except Fault (Bytes × Cursor)
    | 0, c => .ok ([], c)
    | n + 1, c => do
      let (b, c) ← escaped c
      if !Text.Utf8.isTail b 0x80 0xbf then .error .malformed
      let (bs, c) ← tails n c
      return (b :: bs, c)

/-- Takes the characters of a tag as bytes, with percent signs resolved. Each round uses up text, so
fuel beyond its length is never missed. -/
def tagBytes : (fuel : Nat) → Cursor → Except Fault (Bytes × Cursor)
  | 0, _ => .error .malformed
  | fuel + 1, c => do
    let c ← c.need 1
    match c.head? with
    | some ch =>
      if ch = '%' then do
        let (bs, c) ← escapedBytes c
        let (more, c) ← tagBytes fuel c
        return (bs ++ more, c)
      else if isTagChar ch then do
        let (more, c) ← tagBytes fuel c.skip
        return (UInt8.ofNat ch.toNat :: more, c)
      else return ([], c)
    | none => return ([], c)

def anyTagText (c : Cursor) : Except Fault (String × Cursor) := do
  let (bs, after) ← tagBytes (c.size + 1) c
  return (Text.Utf8.repaired bs, after)

/-- A tag text; nothing at all is a fault. -/
def tagText (c : Cursor) : Except Fault (String × Cursor) := do
  let (s, after) ← anyTagText c
  if s = "" then .error .malformed else return (s, after)

/-- An exclamation mark, letters, and a further exclamation mark if it is there. -/
def tagHandle (c : Cursor) : Except Fault (String × Cursor) := do
  let c ← c.need 1
  match c.text with
  | '!' :: _ =>
    let (name, after) ← c.skip.span isWordChar
    if after.head? = some '!' then return (String.ofList ('!' :: name ++ ['!']), after.skip)
    else return (String.ofList ('!' :: name), after)
  | _ => .error .malformed

/-- A tag in one of its forms: in angle brackets, with a handle, or with a mark alone. -/
def scanTag (c : Cursor) : Except Fault (Symbol × Cursor) := do
  let c ← c.need 2
  let (symbol, c) ← match c.text with
    | '!' :: '<' :: _ => do
      let (s, c) ← tagText (c.skipMany 2)
      if c.head? = some '>' then pure (Symbol.tag "" s, c.skip) else .error .malformed
    | _ => do
      let (handle, after) ← tagHandle c
      if 1 < handle.length && handle.endsWith "!" then do
        let (s, c) ← tagText after
        pure (Symbol.tag handle s, c)
      else do
        let (s, c) ← anyTagText after
        let s := String.ofList (handle.toList.drop 1) ++ s
        pure (if s = "" then Symbol.tag "" "!" else Symbol.tag "!" s, c)
  let c ← c.need 1
  if blankAhead c.text then return (symbol, c) else .error .malformed

def scanName (c : Cursor) : Except Fault (String × Cursor) := do
  let (name, after) ← c.span isWordChar
  let ends := blankAhead after.text ||
    match after.head? with
    | some ch => ['?', ':', ',', ']', '\x7d', '%', '@', '\x60'].contains ch
    | none => true
  if name.isEmpty || !ends then .error .malformed else return (String.ofList name, after)

def versionNumber (c : Cursor) : Except Fault (Nat × Cursor) := do
  let (ds, after) ← c.span Decimal.isDigit
  if ds.isEmpty || 2 < ds.length then .error .malformed else return (Decimal.digitsValue ds, after)

/-- The rest of a line that holds nothing but blanks and a comment, with its end. -/
def restOfLine (c : Cursor) : Except Fault Cursor := do
  let c ← c.skipWhile isBlank
  let c ← if c.head? = some '#' then c.skipToBreak else pure c
  match c.head? with
  | some ch => if isBreak ch then c.takeLine else .error .malformed
  | none => return c

def scanDirective (c : Cursor) : Except Fault (Symbol × Cursor) := do
  let (name, c) ← c.skip.span isWordChar
  if name.isEmpty || !blankAhead c.text then .error .malformed
  let (symbol, c) ←
    if String.ofList name = "YAML" then do
      let (major, c) ← versionNumber (← c.skipWhile isBlank)
      if c.head? != some '.' then .error .malformed
      let (minor, c) ← versionNumber c.skip
      pure (Symbol.versionDirective major minor, c)
    else if String.ofList name = "TAG" then do
      let (handle, c) ← tagHandle (← c.skipWhile isBlank)
      let c ← c.need 1
      if (handle != "!" && !(1 < handle.length && handle.endsWith "!")) ||
          !(c.head?.any isBlank) then .error .malformed
      let (s, c) ← tagText (← c.skipWhile isBlank)
      if !blankAhead c.text then .error .malformed
      pure (Symbol.tagDirective handle s, c)
    else .error .malformed
  return (symbol, ← restOfLine c)

end PortCodec.Document.Yaml.Token
