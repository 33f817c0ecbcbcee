import PortCodec.Document.Toml.Token

/-!
Dotted keys. A key is a path of parts; parts are bare or quoted and dots stand between them.
-/

namespace PortCodec.Document.Toml.Key

open Token (isSpace isBareChar)

/-- Takes a bare part off the head of a key, with blanks behind it. -/
def barePart (cs : List Char) : Except Fault (List Char × List Char) :=
  let part := cs.takeWhile isBareChar
  match cs.dropWhile isBareChar with
  | [] => .ok (part, [])
  | '.' :: rest => .ok (part, '.' :: rest)
  | c :: rest =>
    if isSpace c then
      match rest.dropWhile isSpace with
      | [] => .ok (part, [])
      | '.' :: rest => .ok (part, '.' :: rest)
      | rest => .error (Token.atChar rest)
    else .error (Token.atChar (c :: rest))

/-- Takes a quoted part off the head of a key, from behind its quote. -/
def quotedPart (quote : Char) (cs : List Char) : Except Fault (List Char × List Char) :=
  match cs.dropWhile (· ≠ quote) with
  | [] => .error .plain
  | _ :: rest => .ok (cs.takeWhile (· ≠ quote), rest)

/-- Whether a part may start behind a dot. -/
def startsPart : List Char → Bool
  | [] => false
  | c :: _ => isBareChar c || c = '\'' || c = '"' || c = ' '

/-- The parts of a key. Each round uses up text, so fuel beyond its length is never missed. -/
def parts : (fuel : Nat) → List Char → Except Fault (List String)
  | 0, _ => .error .plain
  | fuel + 1, cs =>
    match cs.dropWhile isSpace with
    | [] => .ok []
    | c :: rest =>
      if isBareChar c then do
        let (part, rest) ← barePart (c :: rest)
        return String.ofList part :: (← parts fuel rest)
      else if c = '\'' ∨ c = '"' then do
        let (part, rest) ← quotedPart c rest
        return String.ofList part :: (← parts fuel rest)
      else if c = '.' then
        if startsPart rest then parts fuel rest else .error .plain
      else .error (Token.atChar (c :: rest))

def parse (key : String) : Except Fault (List String) := do
  match ← parts (key.length + 1) key.toList with
  | [] => .error .plain
  | path => return path

end PortCodec.Document.Toml.Key
