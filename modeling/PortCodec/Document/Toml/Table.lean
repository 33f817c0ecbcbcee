import PortCodec.Document.Value
import PortCodec.Text.Quoted

/-!
Tables under construction. A path leads from table to table; where it meets a list of tables it
goes on in the last of them.
-/

namespace PortCodec.Document.Toml

/-- Where a value was assigned: behind a key, given by the length of the document from there on, or
in a table in braces, by a count of its fields. -/
inductive Origin
  | key (left : Nat)
  | field (count : Nat)

inductive Node
  | leaf (v : Value) (origin : Origin)
  /-- A table; one written in braces is closed. -/
  | table (closed : Bool) (fields : List (String × Node))
  /-- A list of tables, the last one first. -/
  | tables (items : List Node)

namespace Node

def empty : Node := .table false []

def find? (fields : List (String × Node)) (name : String) : Option Node :=
  (fields.find? fun f => f.1 = name).map (·.2)

def put (fields : List (String × Node)) (name : String) (n : Node) : List (String × Node) :=
  if fields.any fun f => f.1 = name then fields.map fun f => if f.1 = name then (name, n) else f
  else fields ++ [(name, n)]

def get? (n : Node) : List String → Option Node
  | [] => some n
  | name :: path => match n with
    | .leaf .. => none
    | .table _ fields => (find? fields name).bind (get? · path)
    | .tables (.table _ fields :: _) => (find? fields name).bind (get? · path)
    | .tables _ => none

def assignedAt (origin : Origin) : Node → Node
  | .leaf v _ => .leaf v origin
  | n => n

/-- A value where a table should be, with its name. -/
structure Obstacle where
  name : String
  value : Value
  origin : Origin

/-- Makes sure that a path leads to a table, unless a value is in the way. New tables are closed
where their parent is. -/
def ensure (n : Node) : List String → Except Obstacle Node
  | [] => .ok n
  | name :: path =>
    let below (closed : Bool) (fields : List (String × Node)) :
        Except Obstacle (List (String × Node)) := do
      match find? fields name with
      | some (.leaf value origin) => .error { name, value, origin }
      | child => return put fields name (← ensure (child.getD (.table closed [])) path)
    match n with
    | .table closed fields => do return .table closed (← below closed fields)
    | .tables (.table closed fields :: rest) => do
      return .tables (.table closed (← below closed fields) :: rest)
    | n => .ok n

def sizeAt (n : Node) (path : List String) : Nat :=
  match n.get? path with
  | some (.table _ fields) => fields.length
  | _ => 0

/-- Sets a node at the end of a path and makes the tables on the way. A value on the way is passed
over. -/
def set (n : Node) (v : Node) : List String → Node
  | [] => n
  | [name] => match n with
    | .table closed fields => .table closed (put fields name v)
    | .tables (.table closed fields :: rest) => .tables (.table closed (put fields name v) :: rest)
    | n => n
  | name :: path => match n with
    | .table closed fields => match find? fields name with
      | some (.leaf ..) => set n v path
      | child => .table closed (put fields name (set (child.getD empty) v path))
    | .tables (.table closed fields :: rest) => match find? fields name with
      | some (.leaf ..) => set n v path
      | child =>
        .tables (.table closed (put fields name (set (child.getD empty) v path)) :: rest)
    | n => n

/-- The table that a path leads to, with the last one taken from a list. -/
def target? : Node → Option (Bool × List (String × Node))
  | .table closed fields => some (closed, fields)
  | .tables (.table closed fields :: _) => some (closed, fields)
  | _ => none

mutual

def toValue : Node → Value
  | .leaf v _ => v
  | .table _ fields => .object (fieldValues fields)
  | .tables items => .list (itemValues items).reverse

def fieldValues : List (String × Node) → List (Bytes × Value)
  | [] => []
  | (name, n) :: rest => (Bytes.ofString name, toValue n) :: fieldValues rest

def itemValues : List Node → List Value
  | [] => []
  | n :: rest => toValue n :: itemValues rest

end

end Node

def dateRecord (d : Date) : String :=
  s!"toml.LocalDate\x7bYear:{d.year}, Month:{d.month}, Day:{d.day}\x7d"

def clockRecord (t : Clock) : String :=
  s!"toml.LocalTime\x7bHour:{t.hour}, Minute:{t.minute}, Second:{t.second}, " ++
    s!"Nanosecond:{t.nanosecond}\x7d"

def hexText (n : Nat) : String := "0x" ++ String.ofList (Nat.toDigits 16 n)

def secondsOf (d : Date) (t : Clock) (offset : Int) : Int :=
  Decimal.Calendar.daysBefore d.year d.month d.day * 86400 + t.hour * 3600 + t.minute * 60 +
    t.second - offset * 60

def momentRecord : Moment → String
  | .date d => dateRecord d
  | .time t => clockRecord t
  | .civil d t => s!"toml.LocalDateTime\x7bDate:{dateRecord d}, Time:{clockRecord t}\x7d"
  | .instant d t offset =>
    s!"time.Time\x7bwall:{hexText t.nanosecond}, ext:{secondsOf d t offset}, " ++
      "loc:(*time.Location)(nil)\x7d"

mutual

def record : Value → String
  | .bool b => if b then "true" else "false"
  | .number (.int n) | .number (.signed n) => toString n.toInt
  | .number (.unsigned n) => hexText n.toNat
  | .number (.float x) => x.text
  | .string s => Text.Quoted.bytes s
  | .moment m => momentRecord m
  | .list [] => "[]interface \x7b\x7d(nil)"
  | .list items => "[]interface \x7b\x7d\x7b" ++ ", ".intercalate (recordItems items) ++ "\x7d"
  | _ => ""

def recordItems : List Value → List String
  | [] => []
  | v :: rest => record v :: recordItems rest

end

/-- The line and column where the last `left` characters of a document start. -/
def placeIn (document : List Char) (left : Nat) : Nat × Nat :=
  let before := document.take (document.length - left)
  (before.count '\n' + 1, (before.reverse.takeWhile (· ≠ '\n')).length + 1)

def Node.Obstacle.text (o : Node.Obstacle) (document : List Char) (path : List String) : String :=
  let (line, column) := match o.origin with
    | .key left => placeIn document left
    | .field count => (count, 0)
  ".".intercalate path ++ s!" ({o.name}): *toml.tomlValue (&toml.tomlValue\x7bvalue:" ++
    record o.value ++ ", comment:\"\", commented:false, multiline:false, literal:false, " ++
    s!"position:toml.Position\x7bLine:{line}, Col:{column}\x7d\x7d)"

end PortCodec.Document.Toml
