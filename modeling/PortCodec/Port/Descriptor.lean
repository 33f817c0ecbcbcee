import PortCodec.Document.Value
import PortCodec.Port.Validation

/-!
From a document's tree to a port. Fields are looked at in a fixed order, and the first fault found
is the answer; a field that nothing asked for is a fault of the object that holds it.
-/

namespace PortCodec.Descriptor

open Document (Value Number)

abbrev Fields := List (Bytes × Value)

abbrev Result (α : Type) := Except SchemaError α

def fieldPath (path name : String) : String := if path = "" then name else s!"{path}.{name}"

def itemPath (path : String) (i : Nat) : String := s!"{path}[{i}]"

def fail (path : String) (fault : Fault) : Result α := .error ⟨path, fault⟩

def object (path : String) : Value → Result Fields
  | .object fields => .ok fields
  | v => fail path (.expected .object v.kindName)

def text? (path : String) (fields : Fields) (name : String) : Result (Option Bytes) :=
  match Document.lookup fields name with
  | none => .ok none
  | some (.string s) => .ok (some s)
  | some v => fail (fieldPath path name) (.expected .string v.kindName)

def text (path : String) (fields : Fields) (name : String) : Result Bytes := do
  match ← text? path fields name with
  | some s => return s
  | none => fail (fieldPath path name) .missing

/-- A field that is off unless it says otherwise. -/
def flag (path : String) (fields : Fields) (name : String) : Result Bool :=
  match Document.lookup fields name with
  | none => .ok false
  | some (.bool b) => .ok b
  | some v => fail (fieldPath path name) (.expected .bool v.kindName)

def items (path : String) (fields : Fields) (name : String) : Result (List Value) :=
  match Document.lookup fields name with
  | none => fail (fieldPath path name) .missing
  | some v => match v.items? with
    | some vs => .ok vs
    | none => fail (fieldPath path name) (.expected .list v.kindName)

/-- The least field name that is not among the known ones. -/
def leastUnknown (known : List String) (fields : Fields) : Option Bytes :=
  ((fields.map (·.1)).filter fun n => !(known.map Bytes.ofString).contains n).foldl
    (fun least n => match least with
      | none => some n
      | some m => some (if n < m then n else m)) none

def onlyKnown (path : String) (known : List String) (fields : Fields) : Result Unit :=
  match leastUnknown known fields with
  | none => .ok ()
  | some name => fail path (.unknownField name)

/-- The integer that a number stands for, as far as 64 bits with a sign can hold it. -/
def wide (path : String) : Value → Result Int
  | .number (.int n) => .ok n.toInt
  | .number (.signed n) => .ok n.toInt
  | .number (.unsigned n) =>
    if n.toNat < 2 ^ 63 then .ok n.toNat else fail path (.outOfRange (toString n.toNat))
  | .number (.float x) =>
    match x.toInt? with
    | none => fail path (.expected .integer x.text)
    | some n => if -2 ^ 63 ≤ n ∧ n < 2 ^ 63 then .ok n else fail path (.outOfRange x.text)
  | v => fail path (.expected .integer v.kindName)

def integer (bits : Nat) (path : String) (v : Value) : Result Int := do
  let n ← wide path v
  if -Int.pow 2 (bits - 1) ≤ n ∧ n < Int.pow 2 (bits - 1) then return n
  else fail path (.outOfRange (toString n))

def isCodePoint (n : Int) : Bool := 0 ≤ n && n.toNat.isValidChar

/-- A symbol is the first character of a text, or a code point by number. -/
def symbol (path : String) : Value → Result Int
  | .string s =>
    match Text.Utf8.chars s with
    | [] => fail path (.noCharacter s)
    | c :: _ => if c = Text.Utf8.replacement then fail path (.noCharacter s) else .ok c.toNat
  | v => do
    let n ← integer 32 path v
    if isCodePoint n then return n else fail path (.noCodePoint n)

/-- The limits of an axis. Only a shadow axis may leave one out. -/
def range (path : String) (fields : Fields) (shadow : Bool) : Result (Int16 × Int16) := do
  let min? := Document.lookup fields "min"
  let max? := Document.lookup fields "max"
  if !shadow && (min?.isNone || max?.isNone) then
    fail (fieldPath path (if min?.isSome then "max" else "min")) .missing
  let limit (name : String) (default : Int) : Option Value → Result Int
    | none => .ok default
    | some v => integer 16 (fieldPath path name) v
  let min ← limit "min" (-2 ^ 15) min?
  let max ← limit "max" (2 ^ 15 - 1) max?
  return (Int16.ofInt min, Int16.ofInt max)

def controlFields (kind : Kind) : List String :=
  ["type", "name", "shadow", "centers", "symbol", "macro", "movie"] ++
    if kind.isAxis then ["min", "max"] else []

def kind (path : String) (fields : Fields) : Result Kind := do
  let name ← text path fields "type"
  match Bytes.toString? name >>= Kind.ofName? with
  | some k => return k
  | none => fail (fieldPath path "type") (.unknownType name)

/-- The name of a control; empty places need none. -/
def controlName (path : String) (fields : Fields) (kind : Kind) : Result Bytes := do
  if kind = .null then return (← text? path fields "name").getD []
  else text path fields "name"

/-- The given symbol, else the first character of the name. -/
def controlSymbol (path : String) (fields : Fields) (name : Bytes) : Result Int :=
  match Document.lookup fields "symbol" with
  | some v => symbol (fieldPath path "symbol") v
  | none => .ok (if name = [] then 0 else firstCodePoint name)

def nonempty : Option Bytes → Option Bytes
  | some [] => none
  | s => s

def controlMacro (path : String) (fields : Fields) (symbol : Int) : Result Bytes := do
  let given ← text? path fields "macro"
  return (nonempty given).getD (if symbol = 0 then "" else codePointText symbol)

def controlMovie (path : String) (fields : Fields) (symbol : Int) : Result UInt8 := do
  let given ← text? path fields "movie"
  match nonempty given with
  | none => return if 0 < symbol ∧ symbol < 128 then UInt8.ofNat symbol.toNat else 0
  | some s => match s with
    | [b] => return b
    | _ => fail (fieldPath path "movie") (.longMovie s)

def control (path : String) (v : Value) : Result Control := do
  let fields ← object path v
  let kind ← kind path fields
  let name ← controlName path fields kind
  let shadow ← flag path fields "shadow"
  let centers ← flag path fields "centers"
  let symbol ← controlSymbol path fields name
  let macroText ← controlMacro path fields symbol
  let movie ← controlMovie path fields symbol
  let (min, max) ← if kind.isAxis then range path fields shadow else pure (0, 0)
  onlyKnown path (controlFields kind) fields
  let c : Control := { name, kind, symbol, macroText, movie, shadow, min, max, centers }
  c.validate path
  return c

/-- Reads the items of a list in order, each with its own path. -/
def each (path : String) (read : String → Value → Result α) : Nat → List Value → Result (List α)
  | _, [] => .ok []
  | i, v :: rest => do
    let a ← read (itemPath path i) v
    let as ← each path read (i + 1) rest
    return a :: as

def controller (path : String) (v : Value) : Result Controller := do
  let fields ← object path v
  let family ← text path fields "class"
  let model ← text path fields "type"
  let controls ← items path fields "buttons"
  let controls ← each (fieldPath path "buttons") control 0 controls
  onlyKnown path ["class", "type", "buttons"] fields
  return { family, model, controls }

def slot (path : String) (v : Value) : Result Int := do
  let n ← integer 32 path v
  if n < 0 then fail path (.negativeSlot n) else return n

def port (fields : Fields) : Result Port := do
  let name ← text "" fields "name"
  let humanName ← text? "" fields "hname"
  let symbol ← text? "" fields "symbol"
  let slots ← items "" fields "legal"
  let slots ← each "legal" slot 0 slots
  let controllers ← items "" fields "controllers"
  let controllers ← each "controllers" controller 0 controllers
  onlyKnown "" ["name", "hname", "symbol", "legal", "controllers"] fields
  let p : Port :=
    { name, humanName := (nonempty humanName).getD name
      symbol := (nonempty symbol).getD (codePointText (firstCodePoint name))
      controllers, slots }
  p.validate
  return p

def ofValue : Value → Result Port
  | .object fields => port fields
  | v => fail "" (.notObject v.kindName)

end PortCodec.Descriptor
