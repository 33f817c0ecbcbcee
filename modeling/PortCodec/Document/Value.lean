import PortCodec.Bytes
import PortCodec.Decimal.Shortest
import PortCodec.Document.Moment

/-!
The tree that a document is read into, whatever its syntax. Numbers keep the form in which the
syntax delivers them; texts are byte strings.
-/

namespace PortCodec.Document

inductive Number
  /-- An integer of the host's own width, which is 64 bits. -/
  | int (n : Int64)
  | signed (n : Int64)
  | unsigned (n : UInt64)
  | float (x : Decimal.Binary64)
  deriving DecidableEq

inductive Value
  | null
  | bool (b : Bool)
  | number (n : Number)
  | string (s : Bytes)
  | moment (m : Moment)
  | list (items : List Value)
  /-- A list known to hold nothing but objects. -/
  | records (items : List (List (Bytes × Value)))
  | object (fields : List (Bytes × Value))
  /-- An object with keys that are no texts, which nobody looks into. -/
  | mapping

namespace Value

def kindName : Value → String
  | .null => "null"
  | .bool _ => "bool"
  | .number _ => "number"
  | .string _ => "string"
  | .moment m => m.kindName
  | .list _ => "list"
  | .records _ => "list"
  | .object _ => "object"
  | .mapping => "map[interface \x7b\x7d]interface \x7b\x7d"

def items? : Value → Option (List Value)
  | .list items => some items
  | .records items => some (items.map .object)
  | _ => none

end Value

def lookup (fields : List (Bytes × Value)) (name : Bytes) : Option Value :=
  (fields.find? fun f => f.1 = name).map (·.2)

/-- Sets a field, in place if it is there already. -/
def insert (fields : List (Bytes × Value)) (name : Bytes) (v : Value) : List (Bytes × Value) :=
  if fields.any fun f => f.1 = name then
    fields.map fun f => if f.1 = name then (name, v) else f
  else fields ++ [(name, v)]

end PortCodec.Document
