import PortCodec.Decimal.Bounded
import PortCodec.Port.Basic

/-!
Assignments `controller.control=value`. A control is given by its place or by its name.
-/

namespace PortCodec

structure Assignment where
  controller : Int
  control : Int
  value : Int16
  deriving DecidableEq

inductive AssignmentError
  | shape (text : Bytes)
  | badController (text : Bytes) (error : Decimal.NumberError)
  | noControl (text name : Bytes) (controller : Int)
  | badValue (text : Bytes) (error : Decimal.NumberError)
  /-- The layout has no such control. -/
  | outOfRange (text : Bytes)
  deriving DecidableEq

def AssignmentError.message : AssignmentError → String
  | .shape text => about text "want controller.control=value"
  | .badController text error => about text s!"controller: {error.message}"
  | .noControl text name controller =>
    about text ("no control " ++ Text.Quoted.bytes name ++ s!" on controller {controller}")
  | .badValue text error => about text s!"value: {error.message}"
  | .outOfRange text => about text "control out of range"
where
  about (text : Bytes) (what : String) : String :=
    "assignment " ++ Text.Quoted.bytes text ++ ": " ++ what

namespace Assignment

def cut (b : UInt8) : Bytes → Option (Bytes × Bytes)
  | [] => none
  | x :: rest =>
    if x = b then some ([], rest) else (cut b rest).map fun (front, back) => (x :: front, back)

/-- The place of the first control with a name. Empty places have none. -/
def controlNamed? (p : Port) (controller : Int) (name : Bytes) : Option Nat :=
  if controller < 0 then none
  else do
    let c ← p.controllers[controller.toNat]?
    c.controls.findIdx? fun b => b.kind ≠ .null && b.name = name

/-- The place a text stands for. A number is a place, and any other text is a name. -/
def place? (p : Option Port) (controller : Int) (text : Bytes) : Option Int :=
  match Decimal.readInteger text with
  | .ok n => some n
  | .error _ => do
    let p ← p
    let i ← controlNamed? p controller text
    return i

/-- Reads an assignment for a port. Without a port, controls have no names. -/
def parse (s : Bytes) (p : Option Port) : Except AssignmentError Assignment := do
  let some (left, right) := cut 61 s | throw (.shape s)
  let some (controllerText, name) := cut 46 left | throw (.shape s)
  let controller ← (Decimal.readInteger controllerText).mapError (.badController s)
  let some control := place? p controller name | throw (.noControl s name controller)
  let value ← (Decimal.readShort right).mapError (.badValue s)
  return { controller, control, value }

end Assignment
end PortCodec
