import PortCodec.Document.Value
import PortCodec.Text.Utf8

/-!
Reading JSON. Numbers become doubles and must fit; the last of several fields of one name counts;
damaged text is repaired with the replacement mark; at most 10000 levels may be nested.
-/

namespace PortCodec.Document.Json

def isBlank (c : Char) : Bool := c = ' ' || c = '\t' || c = '\n' || c = '\r'

def skipBlanks (cs : List Char) : List Char := cs.dropWhile isBlank

def isDigit (c : Char) : Bool := '0' ≤ c && c ≤ '9'

def hexValue? (c : Char) : Option Nat :=
  if isDigit c then some (c.toNat - 48)
  else if 'a' ≤ c && c ≤ 'f' then some (c.toNat - 87)
  else if 'A' ≤ c && c ≤ 'F' then some (c.toNat - 55)
  else none

def unit? : List Char → Option Nat
  | [a, b, c, d] => do
    let a ← hexValue? a
    let b ← hexValue? b
    let c ← hexValue? c
    let d ← hexValue? d
    return ((a * 16 + b) * 16 + c) * 16 + d
  | _ => none

def isHighSurrogate (n : Nat) : Bool := 0xd800 ≤ n && n < 0xdc00

def isLowSurrogate (n : Nat) : Bool := 0xdc00 ≤ n && n < 0xe000

/-- The character of a single UTF-16 unit; half a pair is repaired. -/
def charOfUnit (n : Nat) : Char :=
  if isHighSurrogate n || isLowSurrogate n then Text.Utf8.replacement else Char.ofNat n

def simpleEscape? (c : Char) : Option Char :=
  match c with
  | '"' => some '"'
  | '\\' => some '\\'
  | '/' => some '/'
  | 'b' => some (Char.ofNat 8)
  | 'f' => some (Char.ofNat 12)
  | 'n' => some '\n'
  | 'r' => some '\r'
  | 't' => some '\t'
  | _ => none

/-- A piece of a string: a character as it stands, or a UTF-16 unit given by number. -/
inductive Piece
  | char (c : Char)
  | unit (n : Nat)

/-- The pieces of a string up to its closing quote, and what follows. -/
def pieces : List Char → Option (List Piece × List Char)
  | [] => none
  | '"' :: rest => some ([], rest)
  | '\\' :: 'u' :: a :: b :: c :: d :: rest => do
    let n ← unit? [a, b, c, d]
    let (ps, after) ← pieces rest
    return (.unit n :: ps, after)
  | '\\' :: c :: rest => do
    let ch ← simpleEscape? c
    let (ps, after) ← pieces rest
    return (.char ch :: ps, after)
  | c :: rest =>
    if c.toNat < 32 ∨ c = '\\' then none
    else do
      let (ps, after) ← pieces rest
      return (.char c :: ps, after)

def joinPieces : List Piece → List Char
  | [] => []
  | .char c :: rest => c :: joinPieces rest
  | .unit high :: .unit low :: rest =>
    if isHighSurrogate high && isLowSurrogate low then
      Char.ofNat (0x10000 + (high - 0xd800) * 0x400 + (low - 0xdc00)) :: joinPieces rest
    else charOfUnit high :: joinPieces (.unit low :: rest)
  | .unit n :: rest => charOfUnit n :: joinPieces rest

def stringBody (cs : List Char) : Option (List Char × List Char) :=
  (pieces cs).map fun (ps, rest) => (joinPieces ps, rest)

def takeDigits (cs : List Char) : Nat × Nat × List Char :=
  let ds := cs.takeWhile isDigit
  (ds.foldl (fun n d => n * 10 + (d.toNat - 48)) 0, ds.length, cs.dropWhile isDigit)

/-- The whole part: a single zero, or digits that start with none. -/
def wholePart (cs : List Char) : Option (Nat × List Char) :=
  match cs with
  | '0' :: rest => some (0, rest)
  | c :: _ => if isDigit c then let (n, _, rest) := takeDigits cs; some (n, rest) else none
  | [] => none

def exponentPart (cs : List Char) : Option (Int × List Char) :=
  let read (sign : Int) (cs : List Char) : Option (Int × List Char) :=
    let (n, count, rest) := takeDigits cs
    if count = 0 then none else some (sign * n, rest)
  match cs with
  | c :: rest =>
    if c = 'e' ∨ c = 'E' then
      match rest with
      | '+' :: rest => read 1 rest
      | '-' :: rest => read (-1) rest
      | rest => read 1 rest
    else some (0, c :: rest)
  | [] => some (0, [])

/-- A number, and what follows. A magnitude past the doubles is no number. -/
def number? (cs : List Char) : Option (Decimal.Binary64 × List Char) := do
  let (negative, cs) := match cs with
    | '-' :: rest => (true, rest)
    | rest => (false, rest)
  let (whole, cs) ← wholePart cs
  let (digits, places, cs) ← match cs with
    | '.' :: rest =>
      let (n, count, rest) := takeDigits rest
      if count = 0 then none else some (whole * Nat.pow 10 count + n, count, rest)
    | rest => some (whole, 0, rest)
  let (e, cs) ← exponentPart cs
  let x := Decimal.Binary64.ofDecimal negative digits (e - places)
  if x.isInfinite then none else some (x, cs)

def dropWord? (word cs : List Char) : Option (List Char) :=
  if word.isPrefixOf cs then some (cs.drop word.length) else none

mutual

/-- A value, and what follows. Each level of nesting takes one unit of `depth`; `fuel` bounds the
number of steps and is never used up when it starts at the length of the text. -/
def value? (fuel depth : Nat) (cs : List Char) : Option (Value × List Char) :=
  match fuel with
  | 0 => none
  | fuel + 1 =>
    match skipBlanks cs with
    | '"' :: rest => do
      let (body, rest) ← stringBody rest
      return (.string (String.ofList body), rest)
    | '{' :: rest =>
      match depth with
      | 0 => none
      | depth + 1 =>
        match skipBlanks rest with
        | '}' :: rest => some (.object [], rest)
        | rest => fields? fuel depth rest []
    | '[' :: rest =>
      match depth with
      | 0 => none
      | depth + 1 =>
        match skipBlanks rest with
        | ']' :: rest => some (.list [], rest)
        | rest => items? fuel depth rest []
    | 't' :: rest => (dropWord? "rue".toList rest).map (.bool true, ·)
    | 'f' :: rest => (dropWord? "alse".toList rest).map (.bool false, ·)
    | 'n' :: rest => (dropWord? "ull".toList rest).map (.null, ·)
    | cs => do
      let (x, rest) ← number? cs
      return (.number (.float x), rest)

def items? (fuel depth : Nat) (cs : List Char) (done : List Value) : Option (Value × List Char) :=
  match fuel with
  | 0 => none
  | fuel + 1 => do
    let (v, rest) ← value? fuel depth cs
    match skipBlanks rest with
    | ',' :: rest => items? fuel depth rest (v :: done)
    | ']' :: rest => return (.list (v :: done).reverse, rest)
    | _ => none

def fields? (fuel depth : Nat) (cs : List Char) (done : List (Bytes × Value)) :
    Option (Value × List Char) :=
  match fuel with
  | 0 => none
  | fuel + 1 =>
    match skipBlanks cs with
    | '"' :: rest => do
      let (name, rest) ← stringBody rest
      match skipBlanks rest with
      | ':' :: rest =>
        let (v, rest) ← value? fuel depth rest
        let done := insert done (String.ofList name) v
        match skipBlanks rest with
        | ',' :: rest => fields? fuel depth rest done
        | '}' :: rest => return (.object done, rest)
        | _ => none
      | _ => none
    | _ => none

end

def first? (document : Bytes) : Option (Value × List Char) :=
  let cs := Text.Utf8.chars document
  value? (3 * cs.length + 3) 10000 cs

def parse (document : Bytes) : Option Value := do
  let (v, rest) ← first? document
  if (skipBlanks rest).isEmpty then some v else none

end PortCodec.Document.Json
