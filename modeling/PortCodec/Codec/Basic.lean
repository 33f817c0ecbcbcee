import PortCodec.Codec.Backend
import PortCodec.Program.Calling

/-!
A codec offers the four operations of a port's layout on buffers of its user, and refuses buffers
that are too small before it touches them. The operations are those of the interpreter, or of
compiled code.
-/

namespace PortCodec

/-- The operations that a codec is made of. They rely on buffers of the right size. -/
structure Engine where
  read : (controller control : Int64) → BufferWork Int16
  write : (controller control : Int64) → Int16 → BufferWork Unit
  serialize : (start : Nat) → BufferWork Nat
  deserialize : (line : Bytes) → BufferWork Int

def Layout.engine (l : Layout) : Engine where
  read controller control := l.readIn controller.toInt control.toInt
  write controller control := l.writeIn controller.toInt control.toInt
  serialize := l.serializeIn
  deserialize := l.deserializeIn

def Program.Loaded.engine (m : Program.Loaded) : Engine where
  read := m.readIn
  write := m.writeIn
  serialize := m.serializeIn
  deserialize := m.deserializeIn

structure Codec where
  port : Port
  layout : Layout
  /-- The backend that serves the codec. -/
  backend : Backend
  /-- The compiled code of a native codec. -/
  native : Option Program.Loaded := none

namespace Codec

def engine (c : Codec) : Engine :=
  match c.native with
  | some m => m.engine
  | none => c.layout.engine

def checkState (c : Codec) : BufferWork Unit := do
  let held := (← get).state.length
  if held < c.layout.storageSize then throw (.state held c.layout.storageSize)

def checkText (c : Codec) (start : Nat) : BufferWork Unit := do
  let held := (← get).text.length - start
  if held < c.layout.maxTextSize then throw (.text held c.layout.maxTextSize)

def readIn (c : Codec) (controller control : Int64) : BufferWork Int16 := do
  c.checkState
  c.engine.read controller control

def writeIn (c : Codec) (controller control : Int64) (v : Int16) : BufferWork Unit := do
  c.checkState
  c.engine.write controller control v

/-- Writes the line of the state to a place of the text: its length. -/
def serializeIn (c : Codec) (start : Nat := 0) : BufferWork Nat := do
  c.checkState
  c.checkText start
  c.engine.serialize start

def deserializeIn (c : Codec) (line : Bytes) : BufferWork Int := do
  c.checkState
  c.engine.deserialize line

/-- Puts the line of the state behind the text. Room for it is made in a copy, which takes the place
of the text when the line is there. -/
def appendIn (c : Codec) : BufferWork Unit := do
  let b ← get
  let copy := b.text ++ List.replicate c.layout.maxTextSize 0
  match (c.serializeIn b.text.length).on { b with text := copy } with
  | (.ok n, after) => set { after with text := after.text.take (b.text.length + n) }
  | (.error e, after) =>
    set { after with text := b.text }
    throw e

def read (c : Codec) (state : Bytes) (controller control : Int64) :
    Except BufferFault Int16 := do
  let (v, _) ← (c.readIn controller control).result { state }
  return v

def write (c : Codec) (state : Bytes) (controller control : Int64) (v : Int16) :
    Except BufferFault Bytes := do
  let (_, b) ← (c.writeIn controller control v).result { state }
  return b.state

/-- Writes the line of a state to the start of `out`: its length, and `out` after that. -/
def serialize (c : Codec) (state out : Bytes) : Except BufferFault (Nat × Bytes) := do
  let (n, b) ← c.serializeIn.result { state, text := out }
  return (n, b.text)

/-- Reads a line into a state: the number of bytes used, and the state after that. -/
def deserialize (c : Codec) (state line : Bytes) : Except BufferFault (Int × Bytes) := do
  let (n, b) ← (c.deserializeIn line).result { state }
  return (n, b.state)

def line (c : Codec) (state : Bytes) : Except BufferFault Bytes := do
  let (n, out) ← c.serialize state (List.replicate c.layout.maxTextSize 0)
  return out.take n

def appendText (c : Codec) (text state : Bytes) : Except BufferFault Bytes := do
  let (_, b) ← c.appendIn.result { state, text }
  return b.text

def newState (c : Codec) : Bytes := c.layout.newState

end Codec
end PortCodec
