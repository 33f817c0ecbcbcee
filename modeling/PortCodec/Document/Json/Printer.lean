import PortCodec.Text.Quoted

/-!
JSON texts for people: each element on a line of its own, two blanks deeper than what holds it.
Characters that mean something in a web page are escaped, and so are bytes that belong to no
character.
-/

namespace PortCodec.Document.Json

/-- What is printed. Fields keep their order. -/
inductive Tree
  | null
  | number (n : Int)
  | text (s : Bytes)
  | list (items : List Tree)
  | object (fields : List (String × Tree))

def escapeChar (c : Char) : List Char :=
  let numbered := '\\' :: 'u' :: Text.hexDigits 4 c.toNat
  if c = '"' then ['\\', '"']
  else if c = '\\' then ['\\', '\\']
  else if c = '\n' then ['\\', 'n']
  else if c = '\r' then ['\\', 'r']
  else if c = '\t' then ['\\', 't']
  else if c.toNat = 8 then ['\\', 'b']
  else if c.toNat = 12 then ['\\', 'f']
  else if c.toNat < 32 then numbered
  else if c = '<' || c = '>' || c = '&' || c.toNat = 0x2028 || c.toNat = 0x2029 then numbered
  else [c]

def escapeScalar : Text.Scalar → List Char
  | .char c => escapeChar c
  | .stray _ => '\\' :: 'u' :: Text.hexDigits 4 Text.Utf8.replacement.toNat

def quoted (s : Bytes) : String :=
  "\"" ++ String.ofList ((Text.Utf8.scalars s).flatMap escapeScalar) ++ "\""

def lineStart (depth : Nat) : String := "\n" ++ String.ofList (List.replicate (2 * depth) ' ')

def bracketed (depth : Nat) (opening closing : String) (elements : List String) : String :=
  if elements.isEmpty then opening ++ closing
  else
    opening ++ lineStart (depth + 1) ++ ("," ++ lineStart (depth + 1)).intercalate elements ++
      lineStart depth ++ closing

mutual

def Tree.render (depth : Nat) : Tree → String
  | .null => "null"
  | .number n => toString n
  | .text s => quoted s
  | .list items => bracketed depth "[" "]" (Tree.renderItems (depth + 1) items)
  | .object fields => bracketed depth "\x7b" "\x7d" (Tree.renderFields (depth + 1) fields)

def Tree.renderItems (depth : Nat) : List Tree → List String
  | [] => []
  | t :: rest => t.render depth :: Tree.renderItems depth rest

def Tree.renderFields (depth : Nat) : List (String × Tree) → List String
  | [] => []
  | (name, t) :: rest => (quoted name ++ ": " ++ t.render depth) :: Tree.renderFields depth rest

end

def Tree.toText (t : Tree) : String := t.render 0 ++ "\n"

end PortCodec.Document.Json
