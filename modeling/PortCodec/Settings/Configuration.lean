import PortCodec.CommandLine.Grammar
import PortCodec.Files.Folder
import PortCodec.Port.Source
import PortCodec.Settings.Location

/-!
Configuration files: documents that give values to flags.
-/

namespace PortCodec.Settings

open Document (Value)
open CommandLine (Flag FlagKind FlagValue)

structure Configuration where
  format : Format
  fields : List (Bytes × Value)

inductive ConfigurationError
  | file (path : String) (error : FileError)
  | document (path : String)
  deriving DecidableEq

def ConfigurationError.message : ConfigurationError → String
  | .file path error => s!"{path}: {error.message}"
  | .document path => s!"{path}: invalid configuration"

def fieldsOf? : Value → Option (List (Bytes × Value))
  | .object fields => some fields
  | .null => some []
  | _ => none

/-- The fields of a document. Of a JSON text only the first value counts. -/
def decode? (format : Format) (document : Bytes) : Option (List (Bytes × Value)) :=
  match format with
  | .json => (Document.Json.first? document).bind fun (v, _) => fieldsOf? v
  | .yaml => (Document.Yaml.parseFields document).toOption
  | .toml => (Document.Toml.parse document).toOption.bind fieldsOf?
  | .unknown _ => none

/-- The configuration in a file. A file that is missing has none. -/
def load (folder : Folder) (s : Surroundings) (format : Format) (path : String) :
    Except ConfigurationError (Option Configuration) :=
  match folder.read (expand s path) with
  | .error e =>
    if e.fault = .noEntry then .ok none else .error (.file path e)
  | .ok document =>
    match decode? format document with
    | none => .error (.document path)
    | some fields => .ok (some { format, fields })

/-- All configurations there are; those further back count more. -/
def loadAll (folder : Folder) (s : Surroundings) (c : Candidates) :
    Except ConfigurationError (List Configuration) := do
  let each (format : Format) (paths : List String) := paths.mapM (load folder s format)
  let found := (← each .json c.json) ++ (← each .yaml c.yaml) ++ (← each .toml c.toml)
  return found.filterMap id

/-- A value inside objects, by the names on the way to it. -/
def inside? : List String → Value → Option Value
  | [], v => some v
  | n :: rest, .object fields => (Document.lookup fields n).bind (inside? rest)
  | _, _ => none

/-- The name with a capital behind each dot. -/
def titled (name : String) : String :=
  match name.splitOn "." with
  | [] => ""
  | first :: rest => ".".intercalate (first :: rest.map fun w => match w.toList with
      | [] => ""
      | c :: cs => String.ofList (Text.toUpper c :: cs))

/-- A value by parts of its name: an object under the first parts is searched for the others, else
all parts together are the name. -/
def byParts? (fields : List (Bytes × Value)) : (done rest : List String) → Option Value
  | done, [] => Document.lookup fields ("-".intercalate done)
  | done, n :: rest =>
    match Document.lookup fields ("-".intercalate (done ++ [n])) with
    | some (.object inner) =>
      match rest with
      | [] => some (.object inner)
      | _ => Document.lookup inner ("-".intercalate rest)
    | _ => byParts? fields (done ++ [n]) rest

/-- Whether a value is something else than empty tables. -/
def isFilled : Value → Bool
  | .object fields => anyFilled fields
  | _ => true
where
  anyFilled : List (Bytes × Value) → Bool
    | [] => false
    | (_, v) :: rest => isFilled v || anyFilled rest

namespace Configuration

def value? (c : Configuration) (command : Option String) (f : Flag) : Option Value :=
  let found := match c.format with
    | .json =>
      (Document.lookup c.fields f.name).or
        ((Document.lookup c.fields (titled f.name)).or
          (inside? (f.name.splitOn ".") (.object c.fields)))
    | .toml => Document.lookup c.fields f.name
    | _ => byParts? c.fields [] (command.toList ++ [f.name])
  match found with
  | some .null => none
  | v => v

/-- A field of a TOML configuration that is no flag's. Tables are no flag's either, unless there is
nothing in them. -/
def stray? (c : Configuration) (flags : List Flag) : Option Bytes :=
  let isStray : Bytes × Value → Bool
    | (_, .object fields) => isFilled (.object fields)
    | (name, _) => !(flags.any fun f => Bytes.ofString f.name = name)
  if c.format = .toml then (c.fields.find? isStray).map (·.1) else none

end Configuration

/-- A number without a fraction, halves going to the even neighbour. -/
def roundedText? : Decimal.Binary64 → Option String
  | .finite negative m q =>
    let n :=
      if 0 ≤ q then m * Nat.pow 2 q.natAbs else Decimal.Binary64.roundDiv m (Nat.pow 2 q.natAbs)
    some ((if negative then "-" else "") ++ toString n)
  | _ => none

def numberText? : Document.Number → Option String
  | .int n | .signed n => some (toString n.toInt)
  | .unsigned n => some (toString n.toNat)
  | .float x => roundedText? x

def text? : Value → Option String
  | .string s => some (Text.Utf8.repaired s)
  | .moment m => m.text?
  | _ => none

/-- The text of an item of a list, where null is empty. -/
def itemText? : Value → Option String
  | .null => some ""
  | v => text? v

def flagValue? (kind : FlagKind) (v : Value) : Option FlagValue :=
  match kind, v with
  | .texts, .list items => (items.mapM itemText?).map .texts
  | .texts, .moment m => m.text?.map fun s => .texts [s]
  | .text, .moment m => m.text?.map .text
  | _, .string s => kind.read? (Text.Utf8.repaired s)
  | .switch, .bool b => some (.switch b)
  | .integer, .number n => numberText? n >>= kind.read?
  | .natural, .number n => numberText? n >>= kind.read?
  | _, _ => none

end PortCodec.Settings
