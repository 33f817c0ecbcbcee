import PortCodec.Assembly.Link
import PortCodec.Program.Routine
import PortCodec.X86.Emitter

/-!
Compiled codecs: the assembled routines of a layout under a calling convention, ready to be linked
at any address that its fields can reach.
-/

namespace PortCodec

open X86

structure DataRange where
  name : String
  start : Nat
  stop : Nat
  deriving DecidableEq

structure ExportedSymbol where
  name : String
  offset : Nat
  deriving DecidableEq

structure Program where
  convention : Convention
  assembler : Assembler
  data : List DataRange

inductive CompileError
  | noConvention
  /-- A register that the routines use has to be kept. -/
  | savedRegister (r : Register) (convention : String)
  | operand (fault : OperandFault)
  | link (error : Assembly.LinkError)
  /-- Arguments that would have to move in a circle. -/
  | cyclicMoves (convention : String)
  | misuse (m : Assembly.Misuse)
  deriving DecidableEq

def CompileError.message : CompileError → String
  | .noConvention => "codegen: target has no calling convention"
  | .savedRegister r convention => s!"codegen: {r.name} is callee-saved under {convention}"
  | .operand fault => s!"codegen: {fault.message}"
  | .link error => s!"codegen: {error.message}"
  | .cyclicMoves convention => s!"codegen: cyclic argument moves under {convention}"
  | .misuse _ => "codegen: misplaced label"

namespace Program

def exports : List (String × Mark) :=
  [("serialize", .serialize), ("deserialize", .deserialize), ("read", .read), ("write", .write),
   ("format_axis", .formatAxis), ("parse_axis", .parseAxis), ("skip_field", .skipField),
   ("read_table", .readTable), ("write_table", .writeTable)]

def place (e : Emitter) : Item → Emitter × Option Assembly.Misuse
  | .code i => e.emit i
  | .mark m =>
    match e.assembler.define m.label with
    | .ok assembler => ({ e with assembler }, none)
    | .error misuse => (e, some misuse)
  | .align n => ({ e with assembler := e.assembler.align n 0xcc }, none)

def placeAll (e : Emitter) : List Item → Emitter × Option Assembly.Misuse
  | [] => (e, none)
  | i :: rest =>
    match place e i with
    | (e, none) => placeAll e rest
    | (e, some misuse) => (e, some misuse)

def placing (e : Emitter) (items : List Item) : Except Assembly.Misuse Emitter :=
  match placeAll e items with
  | (e, none) => .ok e
  | (_, some misuse) => .error misuse

/-- Writes tables one behind the other, and says where their slots are. -/
def placeTables (e : Emitter) : List Table → Except Assembly.Misuse (Emitter × List DataRange)
  | [] => .ok (e, [])
  | t :: rest => do
    let opened ← placing e t.opening
    let e ← placing opened t.slots
    let range := { name := t.name, start := opened.assembler.size, stop := e.assembler.size }
    let (e, ranges) ← placeTables e rest
    return (e, range :: ranges)

def labelCount (l : Layout) : Nat := 29 + 4 * max l.program.length l.index.length

def prepared (l : Layout) : Assembler :=
  { labels := Array.replicate (labelCount l) .unbound
    globals := exports.map fun (name, m) => (name, m.label) }

/-- The address at which a new program is linked once, to find fields out of reach. -/
def trialBase : UInt64 := 0x10000

/-- The registers of the frame that calls from outside must not rely on. -/
def clobbered (f : Frame) : List Register := [f.state, f.text, f.start, f.controller, f.control]

/-- The first register that routines of 64-bit mode use though it has to be kept. -/
def savedClash? (t : Target) : Option Register :=
  if t.mode = .bits64 then (clobbered t.frame).find? t.convention.isSaved else none

def compile (l : Layout) (convention : Convention) : Except CompileError Program :=
  let t : Target := ⟨l, convention⟩
  match savedClash? t with
  | some r => .error (.savedRegister r convention.name)
  | none =>
    match t.routines? with
    | none => .error (.cyclicMoves convention.name)
    | some routines =>
      let start : Emitter := { mode := t.mode, assembler := prepared l }
      match placing start routines >>= fun e => placeTables e t.tables with
      | .error misuse => .error (.misuse misuse)
      | .ok (e, data) =>
        match e.error with
        | some fault => .error (.operand fault)
        | none =>
          match e.assembler.link trialBase with
          | .error error => .error (.link error)
          | .ok _ => .ok { convention, assembler := e.assembler, data }

def size (p : Program) : Nat := p.assembler.size

def image (p : Program) : Bytes := p.assembler.code.toList

def mode (p : Program) : Mode := p.convention.mode

/-- The exported names in the order of their places. -/
def symbols (p : Program) : List ExportedSymbol :=
  p.assembler.globalNames.map fun name =>
    { name, offset := (p.assembler.offset (p.assembler.globalLabel name)).1.toNat }

def link (p : Program) (base : UInt64) :
    Except Assembly.LinkError (Array UInt8 × List (String × UInt64)) :=
  p.assembler.link base

end Program
end PortCodec
