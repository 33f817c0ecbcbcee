import PortCodec.Port.Basic
import PortCodec.Port.Fault

/-!
When a port can be used: it has a name, every button has a movie byte of its own right, no axis
has an empty range, and every kind is known.
-/

namespace PortCodec

def isMovieByte (b : UInt8) : Bool := 32 < b && b < 127 && b != 46 && b != 124

def Control.fault? (c : Control) : Option (String × Fault) :=
  match c.kind with
  | .null => none
  | .button => if isMovieByte c.movie then none else some (".movie", .badMovie c.movie)
  | .unknown code => some (".type", .unknownKind code)
  | _ => if c.max < c.min then some ("", .emptyRange c.min c.max) else none

def Control.validate (c : Control) (path : String) : Except SchemaError Unit :=
  match c.fault? with
  | none => .ok ()
  | some (field, fault) => .error ⟨path ++ field, fault⟩

namespace Port

def controlPath (controller control : Nat) : String :=
  s!"controllers[{controller}].buttons[{control}]"

def validateControls (controller : Nat) : Nat → List Control → Except SchemaError Unit
  | _, [] => .ok ()
  | i, c :: rest => do
    c.validate (controlPath controller i)
    validateControls controller (i + 1) rest

def validateControllers : Nat → List Controller → Except SchemaError Unit
  | _, [] => .ok ()
  | i, c :: rest => do
    validateControls i 0 c.controls
    validateControllers (i + 1) rest

def validate (p : Port) : Except SchemaError Unit :=
  if p.name = [] then .error ⟨"name", .missing⟩ else validateControllers 0 p.controllers

/-- What `validate` checks, said without an order. -/
def Valid (p : Port) : Prop :=
  p.name ≠ [] ∧ ∀ c ∈ p.controllers, ∀ b ∈ c.controls, b.fault? = none

/-- A port from its parts. Its symbol is the first character of its name. -/
def build (name : Bytes) (slots : List Int) (controllers : List Controller) :
    Except SchemaError Port := do
  let symbol := match Text.Utf8.chars name with
    | [] => ""
    | c :: _ => if c = Text.Utf8.replacement then "" else String.singleton c
  let p : Port := { name, humanName := name, symbol, controllers, slots }
  p.validate
  return p

end Port
end PortCodec
