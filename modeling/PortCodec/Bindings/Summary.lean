import PortCodec.Bindings.Name
import PortCodec.Layout.Plan

/-!
What generated code has to know about a port: the numbers of its layout and its stored controls,
each with an identifier.
-/

namespace PortCodec.Bindings

structure NamedControl where
  name : Bytes
  identifier : String
  kind : Kind
  controller : Nat
  control : Nat
  offset : Nat
  mask : UInt8
  bit : Nat
  min : Int16
  max : Int16
  deriving DecidableEq

def NamedControl.isButton (c : NamedControl) : Bool := c.kind = .button

structure Summary where
  port : Bytes
  identifier : String
  fingerprint : String
  storageSize : Nat
  controllers : Nat
  stride : Nat
  maxText : Nat
  controls : List NamedControl
  deriving DecidableEq

def controlOf (p : Port) (e : Entry) : Control :=
  ((p.controllers[e.controller]?).bind fun c => c.controls[e.control]?).getD {}

/-- The identifier of a control before equal ones are told apart. Ports with several controllers
say which one it belongs to. -/
def baseIdentifier (p : Port) (l : Layout) (e : Entry) : String :=
  let own := identifier (snakeCase (Text.Utf8.repaired (controlOf p e).name)) s!"control{e.control}"
  if 1 < l.controllers then s!"p{e.controller}_{own}" else own

/-- Gives each text that came before the number of times it did. -/
def numberRepeats : (earlier : List String) → List String → List String
  | _, [] => []
  | earlier, s :: rest =>
    let n := earlier.count s
    (if n = 0 then s else s!"{s}_{n}") :: numberRepeats (s :: earlier) rest

def namedControl (p : Port) (e : Entry) (identifier : String) : NamedControl :=
  let c := controlOf p e
  { name := c.name, identifier, kind := e.kind, controller := e.controller, control := e.control
    offset := e.offset, mask := e.mask, bit := e.bit, min := c.min, max := c.max }

def summarize (p : Port) (l : Layout) : Summary :=
  let stored := l.index.filter Entry.isStored
  let identifiers := numberRepeats [] (stored.map (baseIdentifier p l))
  { port := p.name, identifier := identifier (snakeCase (Text.Utf8.repaired p.name)) "port"
    fingerprint := l.shortFingerprint, storageSize := l.storageSize, controllers := l.controllers
    stride := l.stride, maxText := l.maxTextSize
    controls := stored.zipWith (namedControl p) identifiers }

end PortCodec.Bindings
