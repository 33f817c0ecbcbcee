import PortCodec.Text.Letter
import PortCodec.Text.LetterCase

/-!
Names for generated code. A name is taken apart into words, which are put together again in the
style of their new place.
-/

namespace PortCodec.Bindings

def isWordChar (c : Char) : Bool := Text.isLetter c || Text.isDigit c

/-- Whether an upper-case letter starts a new word behind the reversed word `before` and ahead of
`rest`: behind a lower-case letter or a digit, and as the last capital of a row when the next
letter is lower-case. -/
def startsWord (before rest : List Char) : Bool :=
  match before with
  | [] => false
  | p :: _ =>
    Text.isLower p || Text.isDigit p || (Text.isUpper p && rest.head?.any Text.isLower)

def closeWord (reversed : List Char) (rest : List (List Char)) : List (List Char) :=
  if reversed.isEmpty then rest else reversed.reverse :: rest

def splitWords : (reversed : List Char) → List Char → List (List Char)
  | reversed, [] => closeWord reversed []
  | reversed, c :: rest =>
    if !isWordChar c then closeWord reversed (splitWords [] rest)
    else if Text.isUpper c && startsWord reversed rest then closeWord reversed (splitWords [c] rest)
    else splitWords (c :: reversed) rest

/-- The words of a name: runs of letters and digits, parted where capitals show it. -/
def words (s : String) : List (List Char) := splitWords [] s.toList

/-- `left_stick_x` -/
def snakeCase (s : String) : String :=
  "_".intercalate ((words s).map fun w => String.ofList (w.map Text.toLower))

/-- `LEFT_STICK_X` -/
def upperSnakeCase (s : String) : String := Text.upperCase (snakeCase s)

def capitalized : List Char → List Char
  | [] => []
  | c :: rest => Text.toUpper c :: rest.map Text.toLower

/-- `LeftStickX` -/
def pascalCase (s : String) : String := String.ofList ((words s).flatMap capitalized)

/-- A text as an identifier: not empty, and no digit at the start. -/
def identifier (s fallback : String) : String :=
  match s.toList with
  | [] => fallback
  | c :: _ => if Text.isDigit c then "_" ++ s else s

end PortCodec.Bindings
