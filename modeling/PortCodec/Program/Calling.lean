import PortCodec.Line.Buffer
import PortCodec.Program.Loading
import PortCodec.X86.Processor

/-!
Calls of loaded programs. A call finds its buffers at places of their own and may use no more of
them than the layout needs; code that does not keep to that is stopped.
-/

namespace PortCodec.Program.Loaded

open X86

/-- The address of an exported name; zero, where no code is, for other names. -/
def entry (m : Loaded) (name : String) : Nat := ((m.globals.lookup name).getD 0).toNat

/-- The address that calls return to. No code is there either. -/
def backPlace : Nat := 0x1000

def stackPlace : Nat := 0x10000000000

/-- More than any routine uses. -/
def stackSize : Nat := 128

def statePlace : Nat := 0x1000000000000000
def textPlace : Nat := 0x2000000000000000
def linePlace : Nat := 0x4000000000000000

def code (m : Loaded) : Segment :=
  { start := m.base.toNat, bytes := m.image, access := .execute }

def stack : Segment :=
  { start := stackPlace, bytes := Array.replicate stackSize 0, access := .write }

def frame (m : Loaded) : Segment :=
  { start := stackPlace + stackSize
    bytes := (Bytes.littleEndian m.program.mode.pointer.size backPlace).toArray
    access := .read }

def segments (m : Loaded) (buffers : List Segment) : List Segment :=
  m.code :: stack :: m.frame :: buffers

def stateBuffer (own : Bytes) : Segment :=
  { start := statePlace, bytes := own.toArray, access := .write }

def textBuffer (room : Bytes) : Segment :=
  { start := textPlace, bytes := room.toArray, access := .write }

/-- A line is read with an end, which it gets if it has none. -/
def lineBuffer (line : Bytes) : Segment :=
  { start := linePlace, bytes := (Line.terminated line).toArray, access := .read }

def entering (m : Loaded) (name : String) (arguments : List Nat) (buffers : List Segment) :
    Machine where
  registers r :=
    if r = .rsp then stackPlace + stackSize
    else ((m.program.convention.arguments.zip arguments).lookup r).getD 0
  flags := {}
  memory := memoryOf (m.segments buffers)
  next := m.entry name

/-- Calls a routine with arguments in registers: the machine that it returns with. -/
def call (m : Loaded) (name : String) (arguments : List Nat) (buffers : List Segment) :
    Option Machine :=
  (m.entering name arguments buffers).runTo (.of m.program.mode (m.segments buffers))
    (m.segments buffers) backPlace Machine.stretch

/-- Calls a routine on the state. The first arguments are the address of the code, which is not
used, and that of the state. -/
def callIn (m : Loaded) (name : String) (arguments : List Nat) (others : List Segment) :
    BufferWork Machine := do
  let own := (← get).state.take m.layout.storageSize
  match m.call name (m.base.toNat :: statePlace :: arguments) (stateBuffer own :: others) with
  | none => throw .stopped
  | some after =>
    modify fun b =>
      { b with state := after.slice statePlace own.length ++ b.state.drop own.length }
    return after

def readIn (m : Loaded) (controller control : Int64) : BufferWork Int16 := do
  let after ← m.callIn "read" [controller.toUInt64.toNat, control.toUInt64.toNat] []
  return (UInt16.ofNat (after.registers .rax)).toInt16

def writeIn (m : Loaded) (controller control : Int64) (v : Int16) : BufferWork Unit := do
  let arguments := [controller.toUInt64.toNat, control.toUInt64.toNat, v.toInt64.toUInt64.toNat]
  let _ ← m.callIn "write" arguments []

def serializeIn (m : Loaded) (start : Nat) : BufferWork Nat := do
  let room := ((← get).text.drop start).take m.layout.maxTextSize
  let after ← m.callIn "serialize" [textPlace] [textBuffer room]
  modify fun b =>
    { b with
      text := b.text.take start ++ after.slice textPlace room.length ++
        b.text.drop (start + room.length) }
  return after.registers .rax

def deserializeIn (m : Loaded) (line : Bytes) : BufferWork Int := do
  let after ← m.callIn "deserialize" [linePlace] [lineBuffer line]
  return Width.toInt .qword (after.registers .rax)

end PortCodec.Program.Loaded
