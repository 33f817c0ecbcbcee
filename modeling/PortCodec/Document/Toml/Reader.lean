import PortCodec.Decimal.Calendar
import PortCodec.Document.Toml.Key
import PortCodec.Document.Toml.Table
import PortCodec.Text.Utf8

/-!
Reading TOML. Assignments go into the table whose header stands above them; a name can be assigned
once, and a table written in braces takes no more fields.
-/

namespace PortCodec.Document.Toml

open Decimal (Calendar.numbers)

/-- Each underscore stands behind a digit and does not end the number. -/
def underscoresFit (isDigit : Char → Bool) : (before : Bool) → List Char → Bool
  | _, [] => true
  | before, '_' :: rest => before && !rest.isEmpty && underscoresFit isDigit false rest
  | _, c :: rest => underscoresFit isDigit (isDigit c) rest

def dropUnderscores (cs : List Char) : List Char := cs.filter (· ≠ '_')

def integerValue? (n : Int) : Option Value :=
  if -2 ^ 63 ≤ n ∧ n < 2 ^ 63 then some (.number (.signed (Int64.ofInt n)))
  else if 0 ≤ n ∧ n < 2 ^ 64 then some (.number (.unsigned (UInt64.ofNat n.toNat)))
  else none

/-- The value of an integer token. A sign rules out values past 63 bits; three digits or more must
not start with a zero. -/
def integer? (text : String) : Option Value :=
  let cs := text.toList
  let plain := dropUnderscores cs
  let based (base : Nat) (digits : List Char) (isDigit : Char → Bool) : Option Value :=
    if underscoresFit isDigit false cs then
      ((Decimal.unsigned? base digits).map Int.ofNat).bind integerValue?
    else none
  match plain with
  | '0' :: 'x' :: d :: ds => based 16 (d :: ds) Token.isHexDigit
  | '0' :: 'o' :: d :: ds => based 8 (d :: ds) Decimal.isDigit
  | '0' :: 'b' :: d :: ds => based 2 (d :: ds) Decimal.isDigit
  | '0' :: _ :: _ :: _ => none
  | _ =>
    if underscoresFit Decimal.isDigit false cs then do
      let n ← Decimal.signed? 10 plain
      if plain.head? = some '+' ∧ 2 ^ 63 ≤ n then none else integerValue? n
    else none

def float? (text : String) : Option Value :=
  if underscoresFit Decimal.isDigit false text.toList then do
    let x ← Decimal.fraction? (dropUnderscores text.toList)
    if x.isInfinite then none else some (.number (.float x))
  else none

def date? (text : String) : Option Date :=
  match Calendar.numbers text.toList with
  | [y, m, d] => Date.of? y m d
  | _ => none

def clock? (text : String) : Option Clock :=
  match Calendar.numbers text.toList with
  | h :: m :: s :: _ => Clock.of? h m s ((text.toList.dropWhile (· ≠ '.')).drop 1)
  | _ => none

def zone? (text : String) : Option Int :=
  match Calendar.numbers text.toList with
  | [] => some 0
  | [h, m] => offset? (text.startsWith "-") h m
  | _ => none

abbrev Read := Except Fault (Node × List Token)

/-- A value that is not assigned yet. -/
def leaf (v : Value) : Node := .leaf v (.key 0)

def allTables : List Node → Bool
  | [] => true
  | .table _ _ :: rest => allTables rest
  | _ => false

/-- A list of items, last one first. A list of tables can be added to by headers. -/
def listNode (items : List Node) : Node :=
  if !items.isEmpty && allTables items then .tables items
  else leaf (.list (items.reverse.map Node.toValue))

def leafOr (v : Option Value) (rest : List Token) : Read :=
  match v with
  | some v => .ok (leaf v, rest)
  | none => .error .plain

def expectEqual : List Token → Except Fault (List Token)
  | .equal :: rest => .ok rest
  | t :: _ => .error (t.misplaced " instead")
  | [] => .error .plain

mutual

def value (fuel : Nat) (tokens : List Token) : Read :=
  match fuel with
  | 0 => .error .plain
  | fuel + 1 =>
    match tokens with
    | [] => .error .plain
    | t :: rest => match t with
      | .eof => .error .plain
      | .string s => .ok (leaf (.string s), rest)
      | .bool b => .ok (leaf (.bool b), rest)
      | .infinity negative => .ok (leaf (.number (.float (.infinite negative))), rest)
      | .nan => .ok (leaf (.number (.float .nan)), rest)
      | .integer text => leafOr (integer? text) rest
      | .float text => leafOr (float? text) rest
      | .localTime time => leafOr (return .moment (.time (← clock? time))) rest
      | .localDate date => match rest with
        | .localTime time :: .timeOffset offset :: rest =>
          leafOr (return .moment (.instant (← date? date) (← clock? time) (← zone? offset))) rest
        | .localTime time :: rest =>
          leafOr (return .moment (.civil (← date? date) (← clock? time))) rest
        | rest => leafOr (return .moment (.date (← date? date))) rest
      | .leftBracket => items fuel rest []
      | .leftBrace => braced fuel rest none .empty
      | t => .error (t.misplaced "")

def items (fuel : Nat) (tokens : List Token) (done : List Node) : Read :=
  match fuel with
  | 0 => .error .plain
  | fuel + 1 =>
    match tokens with
    | .rightBracket :: rest => .ok (listNode done, rest)
    | .eof :: _ => .error .plain
    | tokens => do
      let (n, rest) ← value fuel tokens
      match rest with
      | .rightBracket :: rest => return (listNode (n :: done), rest)
      | .comma :: rest => items fuel rest (n :: done)
      | _ => .error .plain

/-- The fields of a table in braces; `comma` says whether a comma came last, if anything did. -/
def braced (fuel : Nat) (tokens : List Token) (comma : Option Bool) (done : Node) : Read :=
  match fuel with
  | 0 => .error .plain
  | fuel + 1 =>
    let field (key : String) (rest : List Token) : Read :=
      if comma = some false then .error .plain
      else do
        let rest ← expectEqual rest
        let path ← Key.parse key
        let (n, rest) ← value fuel rest
        let count := path.length - 2 + done.sizeAt path.dropLast + 1
        braced fuel rest (some false) (done.set (n.assignedAt (.field count)) path)
    match tokens with
    | .rightBrace :: rest =>
      if comma = some true then .error .plain
      else match done with
        | .table _ fields => .ok (.table true fields, rest)
        | n => .ok (n, rest)
    | .key key _ :: rest => field key rest
    | .integer key :: rest => field key rest
    | .string key :: rest => field key rest
    | .comma :: rest => if comma = some true then .error .plain
      else braced fuel rest (some true) done
    | .eof :: _ => .error .plain
    | t :: _ => .error (t.misplaced "")
    | [] => .error .plain

end

/-- A document read so far: its tables, the table of the last header and the headers seen. -/
structure Reader where
  document : List Char
  root : Node := .empty
  current : List String := []
  seen : List String := []

namespace Reader

def dotted (path : List String) : String := ".".intercalate path

/-- A header in single brackets, which can stand once. -/
def openTable (r : Reader) (key : String) : Except Fault Reader := do
  if r.seen.contains key then .error .plain
  let path ← Key.parse key
  match r.root.ensure path with
  | .error o => .error (.quoting (o.text r.document path))
  | .ok root =>
    match root.get? path with
    | some (.table true _) => .error (.quoting (dotted path))
    | _ => return { r with root, current := path, seen := key :: r.seen }

/-- A header in double brackets adds a table to a list. Headers below it may be used again. -/
def openItem (r : Reader) (key : String) : Except Fault Reader := do
  let path ← Key.parse key
  let root := (r.root.ensure path.dropLast).toOption.getD r.root
  let items ← match root.get? path with
    | none => .ok []
    | some (.tables items) => .ok items
    | some _ => .error .plain
  let below := (key ++ ".").toList
  return { r with
           root := root.set (.tables (.empty :: items)) path, current := path
           seen := key :: r.seen.filter fun k => !below.isPrefixOf k.toList }

def assign (r : Reader) (key : String) (left : Nat) (v : Node) : Except Fault Reader := do
  let path ← Key.parse key
  let parent := r.current ++ path.dropLast
  let name := path.getLast?.getD ""
  let root ← match r.root.get? parent with
    | none => match r.root.ensure parent with
      | .ok root => .ok root
      | .error o => .error (.quoting (o.text r.document parent))
    | some _ => .ok r.root
  match (root.get? parent).bind Node.target? with
  | none => .error (.quoting (dotted parent))
  | some (true, _) => .error (.quoting (dotted parent))
  | some (false, fields) =>
    if (Node.find? fields name).isSome then .error (.quoting (dotted (parent ++ [name])))
    else return { r with root := root.set (v.assignedAt (.key left)) (parent ++ [name]) }

def run : (fuel : Nat) → Reader → List Token → Except Fault Reader
  | 0, _, _ => .error .plain
  | fuel + 1, r, tokens =>
    match tokens with
    | [] => .ok r
    | .eof :: _ => .ok r
    | .leftBracket :: .tableKey key :: rest => do
      let r ← r.openTable key
      match rest with
      | .rightBracket :: rest => run fuel r rest
      | _ => .error .plain
    | .doubleLeft :: .arrayKey key :: rest => do
      let r ← r.openItem key
      match rest with
      | .doubleRight :: rest => run fuel r rest
      | _ => .error .plain
    | .leftBracket :: t :: _ => .error (t.misplaced ", was expecting a table key")
    | .doubleLeft :: t :: _ => .error (t.misplaced ", was expecting a table array key")
    | .key key left :: rest => do
      let rest ← expectEqual rest
      discard (Key.parse key)
      let (v, rest) ← value (tokens.length + 1) rest
      let r ← r.assign key left v
      run fuel r rest
    | .fault f :: _ => .error f
    | _ => .error .plain

end Reader

def dropMark : Bytes → Bytes
  | 0 :: 0 :: 0xfe :: 0xff :: rest => rest
  | 0xff :: 0xfe :: 0 :: 0 :: rest => rest
  | 0xef :: 0xbb :: 0xbf :: rest => rest
  | 0xfe :: 0xff :: rest => rest
  | 0xff :: 0xfe :: rest => rest
  | bs => bs

def parse (document : Bytes) : Except Fault Value := do
  let document := Text.Utf8.chars (dropMark document)
  let tokens := Token.scan document
  let r ← Reader.run (tokens.length + 1) { document } tokens
  return r.root.toValue

end PortCodec.Document.Toml
