import PortCodec.Text.Quoted

/-!
What can be wrong with a port or its descriptor, and where. A fault has a cause; its wording is
in one place.
-/

namespace PortCodec

inductive Format
  | json
  | yaml
  | toml
  | unknown (code : UInt8)
  deriving DecidableEq

def Format.ofCode (n : UInt8) : Format :=
  if n = 0 then .json else if n = 1 then .yaml else if n = 2 then .toml else .unknown n

def Format.name : Format → String
  | .json => "json"
  | .yaml => "yaml"
  | .toml => "toml"
  | .unknown n => s!"Format({n.toNat})"

/-- What a descriptor should have held at some place. -/
inductive Shape
  | object
  | string
  | bool
  | list
  | integer
  deriving DecidableEq

def Shape.name : Shape → String
  | .object => "object"
  | .string => "string"
  | .bool => "bool"
  | .list => "list"
  | .integer => "integer"

inductive Fault
  /-- The document cannot be read; `details` are further lines on it. -/
  | unreadable (format : Format) (details : String)
  /-- The document merges objects whose keys cannot be told apart. -/
  | unmergeable
  | unknownFormat (format : Format)
  | notObject (got : String)
  | expected (shape : Shape) (got : String)
  | missing
  | unknownField (name : Bytes)
  | unknownType (name : Bytes)
  | negativeSlot (slot : Int)
  | outOfRange (number : String)
  | noCharacter (text : Bytes)
  | noCodePoint (n : Int)
  | longMovie (text : Bytes)
  | badMovie (b : UInt8)
  | emptyRange (min max : Int16)
  | unknownKind (code : UInt8)
  deriving DecidableEq

def Fault.message : Fault → String
  | .unreadable format details => s!"invalid {format.name}{details}"
  | .unmergeable => "runtime error"
  | .unknownFormat format => s!"unknown format {format.name}"
  | .notObject got => s!"port must be an object, got {got}"
  | .expected shape got => s!"expected {shape.name}, got {got}"
  | .missing => "required field missing"
  | .unknownField name => "unknown field " ++ Text.Quoted.bytes name
  | .unknownType name => "unknown control type " ++ Text.Quoted.bytes name
  | .negativeSlot slot => s!"slot index {slot} is negative"
  | .outOfRange number => s!"value {number} out of range"
  | .noCharacter text => "symbol " ++ Text.Quoted.bytes text ++ " is not a valid character"
  | .noCodePoint n => s!"symbol {n} is not a valid code point"
  | .longMovie text => "movie symbol " ++ Text.Quoted.bytes text ++ " must be a single character"
  | .badMovie b => "movie symbol " ++ Text.Quoted.byte b ++
      " must be one printable ASCII character other than '.', '|' or space"
  | .emptyRange min max => s!"min {min.toInt} greater than max {max.toInt}"
  | .unknownKind code => s!"unknown control kind {code.toNat}"

/-- A fault and the place of the descriptor that it concerns. -/
structure SchemaError where
  path : String
  fault : Fault
  deriving DecidableEq

/-- Whether reading the descriptor broke off, so that nothing can be said about its parts. -/
def SchemaError.isAbort (e : SchemaError) : Bool := e.fault = .unmergeable

def SchemaError.message (e : SchemaError) : String :=
  if e.isAbort then e.fault.message
  else if e.path = "" then "schema: " ++ e.fault.message
  else s!"schema: {e.path}: {e.fault.message}"

end PortCodec
