import PortCodec.Decimal.Numeral

/-!
The tokens of a TOML document. A document is cut into tokens to its end or to its first fault,
which is then the last token. Inside brackets a line end is a blank; inside braces a comma is
followed by a key.
-/

namespace PortCodec.Document.Toml

/-- Why a document cannot be read. Faults that quote the document keep the quoted text. -/
inductive Fault
  | plain
  | quoting (text : String)
  deriving DecidableEq

def Fault.text : Fault → String
  | .plain => ""
  | .quoting text => text

def Fault.followedBy (f : Fault) (words : String) : Fault := .quoting (f.text ++ words)

inductive Token
  | fault (f : Fault)
  | eof
  /-- A key, with the length of the document from its start on. -/
  | key (text : String) (left : Nat)
  | string (text : String)
  | integer (text : String)
  | float (text : String)
  | bool (b : Bool)
  | infinity (negative : Bool)
  | nan
  | equal
  | comma
  | leftBracket
  | rightBracket
  | leftBrace
  | rightBrace
  | doubleLeft
  | doubleRight
  | localDate (text : String)
  | localTime (text : String)
  | timeOffset (text : String)
  | tableKey (text : String)
  | arrayKey (text : String)
  deriving DecidableEq

/-- What is wrong where another token should stand. Only faults are quoted as they are. -/
def Token.misplaced (words : String) : Token → Fault
  | .fault f => f.followedBy words
  | _ => .plain

namespace Token

def isSpace (c : Char) : Bool := c = ' ' || c = '\t'

def isBareChar (c : Char) : Bool :=
  ('a' ≤ c && c ≤ 'z') || ('A' ≤ c && c ≤ 'Z') || c = '_' || c = '-' || Decimal.isDigit c

def isHexDigit (c : Char) : Bool :=
  Decimal.isDigit c || ('a' ≤ c && c ≤ 'f') || ('A' ≤ c && c ≤ 'F')

/-- The character of a number, repaired where there is none. -/
def charOf (n : Nat) : Char := if n.isValidChar then Char.ofNat n else Char.ofNat 0xfffd

def hexChar? (ds : List Char) : Option Char :=
  if ds.all isHexDigit then (Decimal.unsigned? 16 ds).map charOf else none

/-- A fault that ends in a character of the document, or in its end. -/
def atChar : List Char → Fault
  | [] => .plain
  | c :: _ => .quoting (String.singleton c)

/-- The text of a string without escapes up to its terminator, and what follows. -/
def literal (terminator : List Char) : List Char → Option (List Char × List Char)
  | [] => none
  | c :: rest =>
    if terminator.isPrefixOf (c :: rest) then some ([], (c :: rest).drop terminator.length)
    else (literal terminator rest).map fun (s, after) => (c :: s, after)

def escape? (c : Char) : Option Char :=
  match c with
  | '"' => some '"'
  | 'n' => some '\n'
  | 'b' => some (Char.ofNat 8)
  | 'f' => some (Char.ofNat 12)
  | '/' => some '/'
  | 't' => some '\t'
  | 'r' => some '\r'
  | '\\' => some '\\'
  | _ => none

def isBlank (c : Char) : Bool := c = ' ' || c = '\t' || c = '\n' || c = '\r'

/-- The text of a string with escapes up to its terminator, and what follows. A backslash before
blanks removes them all; `skipping` is set inside such a run. -/
def basic (terminator : List Char) (multiline : Bool) (skipping : Bool) :
    List Char → Option (List Char × List Char)
  | [] => none
  | c :: rest =>
    if skipping && isBlank c then basic terminator multiline true rest
    else if terminator.isPrefixOf (c :: rest) then some ([], (c :: rest).drop terminator.length)
    else if c = '\\' then
      match rest with
      | 'u' :: a :: b :: c :: d :: rest => do
        let ch ← hexChar? [a, b, c, d]
        let (s, after) ← basic terminator multiline false rest
        return (ch :: s, after)
      | 'U' :: a :: b :: c :: d :: e :: f :: g :: h :: rest => do
        let ch ← hexChar? [a, b, c, d, e, f, g, h]
        let (s, after) ← basic terminator multiline false rest
        return (ch :: s, after)
      | e :: rest =>
        if isBlank e then basic terminator multiline true rest
        else do
          let ch ← escape? e
          let (s, after) ← basic terminator multiline false rest
          return (ch :: s, after)
      | [] => none
    else if c.toNat < 32 && c ≠ '\t' && !(multiline && (c = '\n' || c = '\r')) then none
    else (basic terminator multiline false rest).map fun (s, after) => (c :: s, after)

def dropNewline : List Char → List Char
  | '\r' :: '\n' :: rest => rest
  | '\n' :: rest => rest
  | cs => cs

/-- A string from behind its first quote. Three quotes start a text of several lines. -/
def stringAfter (quote : Char) (cs : List Char) : Option (List Char × List Char) :=
  let read (terminator : List Char) (multiline : Bool) (cs : List Char) :=
    if quote = '"' then basic terminator multiline false cs else literal terminator cs
  match cs with
  | a :: b :: rest =>
    if a = quote ∧ b = quote then read [quote, quote, quote] true (dropNewline rest)
    else read [quote] false cs
  | _ => read [quote] false cs

/-- The text of a key: bare characters, dots, quoted parts, and blanks around dots. -/
def keyText : (fuel : Nat) → List Char → Except Fault (List Char × List Char)
  | 0, _ => .error .plain
  | fuel + 1, cs =>
    match cs with
    | [] => .ok ([], [])
    | c :: rest =>
      if c = '=' then .ok ([], cs)
      else if c = '"' ∨ c = '\'' then
        let inside := if c = '"' then basic ['"'] true false rest else literal ['\''] rest
        match inside with
        | none => .error .plain
        | some (s, rest) => do
          let (k, after) ← keyText fuel rest
          return (c :: s ++ c :: k, after)
      else if c = '\n' ∨ c = '\r' then .error .plain
      else if isSpace c then
        let blanks := rest.takeWhile isSpace
        match rest.dropWhile isSpace with
        | '.' :: rest => do
          let (k, after) ← keyText fuel (rest.dropWhile isSpace)
          return (' ' :: blanks ++ '.' :: rest.takeWhile isSpace ++ k, after)
        | rest => .ok ([], rest)
      else if c = '.' ∨ isBareChar c then do
        let (k, after) ← keyText fuel rest
        return (c :: k, after)
      else .error .plain

def digits? (count : Nat) (cs : List Char) : Except Fault (List Char × List Char) :=
  match count, cs with
  | 0, cs => .ok ([], cs)
  | n + 1, c :: rest =>
    if Decimal.isDigit c then (digits? n rest).map fun (ds, after) => (c :: ds, after)
    else .error (atChar (c :: rest))
  | _ + 1, [] => .error .plain

def mark (m : Char) : List Char → Except Fault (List Char)
  | c :: rest => if c = m then .ok rest else .error (atChar (c :: rest))
  | [] => .error .plain

def timeText (cs : List Char) : Except Fault (List Char × List Char) := do
  let (hour, cs) ← digits? 2 cs
  let cs ← mark ':' cs
  let (minute, cs) ← digits? 2 cs
  let cs ← mark ':' cs
  let (second, cs) ← digits? 2 cs
  let whole := hour ++ ':' :: minute ++ ':' :: second
  match cs with
  | '.' :: cs =>
    let (first, cs) ← digits? 1 cs
    return (whole ++ '.' :: first ++ cs.takeWhile Decimal.isDigit, cs.dropWhile Decimal.isDigit)
  | cs => return (whole, cs)

def offsetText (cs : List Char) : Except Fault (List Char × List Char) :=
  match cs with
  | 'Z' :: rest => .ok (['Z'], rest)
  | c :: rest =>
    if c = '+' ∨ c = '-' then do
      let (hour, rest) ← digits? 2 rest
      let rest ← mark ':' rest
      let (minute, rest) ← digits? 2 rest
      return (c :: hour ++ ':' :: minute, rest)
    else .ok ([], cs)
  | [] => .ok ([], [])

def timeTokens (cs : List Char) : List Token × Option (List Char) :=
  match timeText cs with
  | .error f => ([.fault f], none)
  | .ok (time, rest) => ([.localTime (String.ofList time)], some rest)

/-- The tokens of a time behind a date and of its zone. Tokens before a fault are kept. -/
def zonedTokens (cs : List Char) : List Token × Option (List Char) :=
  match timeText cs with
  | .error f => ([.fault f], none)
  | .ok (time, rest) =>
    match offsetText rest with
    | .error f => ([.localTime (String.ofList time), .fault f], none)
    | .ok ([], rest) => ([.localTime (String.ofList time)], some rest)
    | .ok (offset, rest) =>
      ([.localTime (String.ofList time), .timeOffset (String.ofList offset)], some rest)

def dateText (cs : List Char) : Except Fault (List Char × List Char) := do
  let (year, cs) ← digits? 4 cs
  let cs ← mark '-' cs
  let (month, cs) ← digits? 2 cs
  let cs ← mark '-' cs
  let (day, cs) ← digits? 2 cs
  return (year ++ '-' :: month ++ '-' :: day, cs)

/-- The tokens of a date, with the time behind it if there is one. A date ends the document or has
a blank or `T` behind it. -/
def dateTokens (cs : List Char) : List Token × Option (List Char) :=
  match dateText cs with
  | .error f => ([.fault f], none)
  | .ok (date, rest) =>
    let date := Token.localDate (String.ofList date)
    let withTime (rest : List Char) :=
      let (tokens, after) := zonedTokens rest
      (date :: tokens, after)
    match rest with
    | [] => ([date], some [])
    | 'T' :: rest => withTime rest
    | ' ' :: a :: b :: rest =>
      if Decimal.isDigit a && Decimal.isDigit b then withTime (a :: b :: rest)
      else ([date], some (a :: b :: rest))
    | ' ' :: rest => ([date], some rest)
    | rest => ([date, .fault (atChar rest)], none)

def basedInteger (mark : Char) (valid : Char → Bool) (cs : List Char) :
    List Token × Option (List Char) :=
  let ds := cs.takeWhile fun c => valid c || c = '_'
  if ds.isEmpty then ([.fault .plain], none)
  else ([.integer (String.ofList ('0' :: mark :: ds))],
    some (cs.dropWhile fun c => valid c || c = '_'))

structure Scan where
  text : List Char := []
  point : Bool := false
  exponent : Bool := false
  digit : Bool := false

/-- Takes the characters of a decimal number; `none` for one that is cut off or starts with its
point. -/
def scanNumber (s : Scan) : List Char → Option (Scan × List Char)
  | [] => some (s, [])
  | c :: rest =>
    if c = '.' then
      if s.point then none
      else match rest with
        | d :: rest' =>
          if Decimal.isDigit d && s.digit then
            scanNumber { s with text := d :: c :: s.text, point := true } rest'
          else none
        | [] => none
    else if c = 'e' ∨ c = 'E' then
      match rest with
      | d :: rest' =>
        if d = '+' ∨ d = '-' then
          scanNumber { s with text := d :: c :: s.text, exponent := true } rest'
        else scanNumber { s with text := c :: s.text, exponent := true } (d :: rest')
      | [] => some ({ s with text := c :: s.text, exponent := true }, [])
    else if Decimal.isDigit c then scanNumber { s with text := c :: s.text, digit := true } rest
    else if c = '_' then scanNumber { s with text := c :: s.text } rest
    else some (s, c :: rest)

def decimalTokens (sign cs : List Char) : List Token × Option (List Char) :=
  match scanNumber {} cs with
  | none => ([.fault .plain], none)
  | some (s, rest) =>
    let text := String.ofList (sign ++ s.text.reverse)
    if !s.digit then ([.fault .plain], none)
    else if s.point || s.exponent then ([.float text], some rest)
    else ([.integer text], some rest)

def numberTokens (cs : List Char) : List Token × Option (List Char) :=
  let signed (sign : Char) (rest : List Char) : List Token × Option (List Char) :=
    if "inf".toList.isPrefixOf rest then ([.infinity (sign = '-')], some (rest.drop 3))
    else if "nan".toList.isPrefixOf rest then ([.nan], some (rest.drop 3))
    else decimalTokens [sign] rest
  match cs with
  | '0' :: 'x' :: rest => basedInteger 'x' isHexDigit rest
  | '0' :: 'o' :: rest => basedInteger 'o' (fun c => '0' ≤ c && c ≤ '7') rest
  | '0' :: 'b' :: rest => basedInteger 'b' (fun c => c = '0' || c = '1') rest
  | '0' :: c :: rest => if c.isAlpha then ([.fault .plain], none)
    else decimalTokens [] ('0' :: c :: rest)
  | '+' :: rest => signed '+' rest
  | '-' :: rest => signed '-' rest
  | cs => decimalTokens [] cs

/-- A value that starts with a digit: two digits and a colon start a time, four digits and a dash
a date. -/
def digitTokens (cs : List Char) : List Token × Option (List Char) :=
  let isTime := match cs with
    | a :: b :: ':' :: _ => Decimal.isDigit a && Decimal.isDigit b
    | _ => false
  let isDate := match cs with
    | a :: b :: c :: d :: '-' :: _ => [a, b, c, d].all Decimal.isDigit
    | _ => false
  if isTime then timeTokens cs else if isDate then dateTokens cs else numberTokens cs

inductive Mode
  | key
  | value

inductive Bracket
  | square
  | brace
  deriving DecidableEq

structure Lexer where
  mode : Mode
  pending : List Bracket
  text : List Char

/-- The rest of the document behind a comment; the line end stays. -/
def skipComment : List Char → List Char
  | [] => []
  | '\n' :: rest => '\n' :: rest
  | '\r' :: '\n' :: rest => '\r' :: '\n' :: rest
  | _ :: rest => skipComment rest

/-- The key of a table header up to its bracket, from behind the opening one. -/
def tableHeader (cs : List Char) : List Token × Option (List Char) :=
  let key := cs.takeWhile fun c => c ≠ ']' && c ≠ '['
  match cs.dropWhile fun c => c ≠ ']' && c ≠ '[' with
  | ']' :: rest =>
    let name := if key.isEmpty then [] else [Token.tableKey (String.ofList key)]
    (name ++ [.rightBracket], some rest)
  | _ => ([.fault .plain], none)

def arrayHeader (cs : List Char) : List Token × Option (List Char) :=
  let key := cs.takeWhile fun c => c ≠ ']' && c ≠ '['
  let name := if key.isEmpty then [] else [Token.arrayKey (String.ofList key)]
  match cs.dropWhile fun c => c ≠ ']' && c ≠ '[' with
  | ']' :: ']' :: rest => (name ++ [.doubleRight], some rest)
  | ']' :: _ => (name ++ [.fault .plain], none)
  | _ => ([.fault .plain], none)

namespace Lexer

def after (l : Lexer) (mode : Mode) : List Token × Option (List Char) → List Token × Option Lexer
  | (tokens, none) => (tokens, none)
  | (tokens, some text) => (tokens, some { l with mode, text })

def closeBrace (l : Lexer) (rest : List Char) : List Token × Option Lexer :=
  match l.pending with
  | .brace :: outer => ([.rightBrace], some { mode := .value, pending := outer, text := rest })
  | _ => ([.rightBrace, .fault .plain], none)

def keyStep (l : Lexer) : List Token × Option Lexer :=
  match l.text with
  | [] => ([.eof], none)
  | '\x7d' :: rest => l.closeBrace rest
  | '[' :: '[' :: rest => l.after .key (let (ts, r) := arrayHeader rest; (.doubleLeft :: ts, r))
  | '[' :: rest => l.after .key (let (ts, r) := tableHeader rest; (.leftBracket :: ts, r))
  | '#' :: rest => ([], some { l with text := skipComment rest })
  | '=' :: rest => l.after .value ([.equal], some rest)
  | c :: rest =>
    if c = '\r' ∨ c = '\n' ∨ isSpace c then ([], some { l with text := rest })
    else match keyText (l.text.length + 1) l.text with
      | .error f => ([.fault f], none)
      | .ok (k, rest) => l.after .key ([.key (String.ofList k) l.text.length], some rest)

def valueStep (l : Lexer) : List Token × Option Lexer :=
  match l.text with
  | [] => ([.eof], none)
  | '.' :: _ => ([.fault .plain], none)
  | '=' :: rest => l.after .value ([.equal], some rest)
  | '[' :: rest => ([.leftBracket], some { l with pending := .square :: l.pending, text := rest })
  | ']' :: rest =>
    let outer := match l.pending with
      | .square :: outer => outer
      | o => o
    ([.rightBracket], some { l with pending := outer, text := rest })
  | '\x7b' :: rest =>
    ([.leftBrace], some { mode := .key, pending := .brace :: l.pending, text := rest })
  | '\x7d' :: rest => l.closeBrace rest
  | '#' :: rest => ([], some { l with text := skipComment rest })
  | '"' :: rest => match stringAfter '"' rest with
    | none => ([.fault .plain], none)
    | some (s, rest) => l.after .value ([.string (String.ofList s)], some rest)
  | '\'' :: rest => match stringAfter '\'' rest with
    | none => ([.fault .plain], none)
    | some (s, rest) => l.after .value ([.string (String.ofList s)], some rest)
  | ',' :: rest =>
    l.after (if l.pending.head? = some .brace then .key else .value) ([.comma], some rest)
  | c :: rest =>
    if c = '\r' ∨ c = '\n' then
      let mode := if l.pending.head? = some .square then .value else .key
      ([], some { l with mode, text := rest })
    else if "true".toList.isPrefixOf l.text then l.after .value ([.bool true], some (l.text.drop 4))
    else if "false".toList.isPrefixOf l.text then
      l.after .value ([.bool false], some (l.text.drop 5))
    else if "inf".toList.isPrefixOf l.text then
      l.after .value ([.infinity false], some (l.text.drop 3))
    else if "nan".toList.isPrefixOf l.text then l.after .value ([.nan], some (l.text.drop 3))
    else if isSpace c then ([], some { l with text := rest })
    else if c = '+' ∨ c = '-' then l.after .value (numberTokens l.text)
    else if Decimal.isDigit c then l.after .value (digitTokens l.text)
    else ([.fault .plain], none)

def step (l : Lexer) : List Token × Option Lexer :=
  match l.mode with
  | .key => l.keyStep
  | .value => l.valueStep

/-- Runs the lexer. Every step but the last uses up text, so fuel beyond the length of the text is
never missed. -/
def run : (fuel : Nat) → Lexer → List Token
  | 0, _ => [.fault .plain]
  | fuel + 1, l => match l.step with
    | (tokens, none) => tokens
    | (tokens, some l) => tokens ++ run fuel l

end Lexer

def scan (document : List Char) : List Token :=
  Lexer.run (document.length + 1) { mode := .key, pending := [], text := document }

end Token
end PortCodec.Document.Toml
