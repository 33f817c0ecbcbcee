import PortCodec.Text.Printable
import PortCodec.Text.Utf8

/-!
Quoted text as messages show it: printable characters stand as they are, the others are
escaped.
-/

namespace PortCodec.Text

def hexDigits : (width : Nat) → Nat → List Char
  | 0, _ => []
  | w + 1, n => hexDigits w (n / 16) ++ [Bytes.hexDigit (n % 16)]

namespace Quoted

def escape (quote : Char) (c : Char) : List Char :=
  let n := c.toNat
  if c = quote ∨ c = '\\' then ['\\', c]
  else if isPrintable n then [c]
  else if n = 7 then ['\\', 'a']
  else if n = 8 then ['\\', 'b']
  else if n = 12 then ['\\', 'f']
  else if n = 10 then ['\\', 'n']
  else if n = 13 then ['\\', 'r']
  else if n = 9 then ['\\', 't']
  else if n = 11 then ['\\', 'v']
  else if n < 32 ∨ n = 127 then '\\' :: 'x' :: hexDigits 2 n
  else if n < 0x10000 then '\\' :: 'u' :: hexDigits 4 n
  else '\\' :: 'U' :: hexDigits 8 n

def string (s : String) : String :=
  String.ofList ('"' :: s.toList.flatMap (escape '"') ++ ['"'])

/-- A byte string; stray bytes are written by their number. -/
def bytes (bs : Bytes) : String :=
  let body := (Utf8.scalars bs).flatMap fun
    | .char c => escape '"' c
    | .stray b => '\\' :: 'x' :: hexDigits 2 b.toNat
  String.ofList ('"' :: body ++ ['"'])

/-- A byte, shown as the character of that number. -/
def byte (b : UInt8) : String :=
  String.ofList ('\'' :: escape '\'' (Char.ofNat b.toNat) ++ ['\''])

end Quoted
end PortCodec.Text
