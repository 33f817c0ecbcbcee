import PortCodec.Layout.Basic
import PortCodec.Line.Axis

/-!
Lines and states. The program of a layout is run over a state to write its line, and over a line
to read the state it spells; single controls are read and written through the index.
-/

namespace PortCodec

def isFieldEnd (b : UInt8) : Bool := b = 124 || b = 13 || b = 10 || b = 0

def isLineEnd (b : UInt8) : Bool := b = 13 || b = 10 || b = 0

namespace Line

def testMask (state : Bytes) (offset : Nat) (mask : UInt8) : Bool :=
  state.byteAt offset &&& mask != 0

def setMask (state : Bytes) (offset : Nat) (mask : UInt8) : Bytes :=
  state.modify offset (· ||| mask)

def clearMask (state : Bytes) (offset : Nat) (mask : UInt8) : Bytes :=
  state.modify offset (· &&& ~~~ mask)

def axisAt (state : Bytes) (offset : Nat) : Int16 := (state.word offset).toInt16

def setAxis (state : Bytes) (offset : Nat) (v : Int16) : Bytes := state.setWord offset v.toUInt16

def stepText (state : Bytes) : Step → Bytes
  | .button offset mask char => [if testMask state offset mask then char else 46]
  | .axis offset => axisText (axisAt state offset)
  | .leadingPipe | .pipe => [124]
  | .finish | .finishEmpty => []

/-- Drops the rest of a field and the separator behind it, if there is one. -/
def skipField : Bytes → Bytes
  | b :: rest => if b = 124 then rest else if isLineEnd b then b :: rest else skipField rest
  | [] => []

def readStep (state text : Bytes) : Step → Bytes × Bytes
  | .button offset mask _ =>
    match text with
    | [] => (state, [])
    | b :: rest =>
      if isFieldEnd b then (state, text)
      else if b = 46 ∨ b = 32 then (state, rest)
      else (setMask state offset mask, rest)
  | .axis offset =>
    let (v, rest) := readAxis text
    (setAxis state offset v, rest)
  | .leadingPipe | .pipe => (state, skipField text)
  | .finish | .finishEmpty => (state, text)

def readSteps (state text : Bytes) : List Step → Bytes × Bytes
  | [] => (state, text)
  | s :: rest =>
    let (state', text') := readStep state text s
    readSteps state' text' rest

/-- A line with an end: one that has none gets a zero. -/
def terminated (text : Bytes) : Bytes := if text.any isLineEnd then text else text ++ [0]

def clearFirst (n : Nat) (state : Bytes) : Bytes :=
  List.replicate (min n state.length) 0 ++ state.drop n

end Line

namespace Layout

/-- What reading reports for a port without controllers. -/
def blank : Int := -1

def serialize (l : Layout) (state : Bytes) : Bytes := l.program.flatMap (Line.stepText state)

def deserialize (l : Layout) (state text : Bytes) : Int × Bytes :=
  let (state', rest) := Line.readSteps (Line.clearFirst l.storageSize state) text l.program
  (if l.program.contains .finishEmpty then blank else text.length - rest.length, state')

/-- The value of a control; controls outside the layout read as zero. -/
def read (l : Layout) (state : Bytes) (controller control : Int) : Int16 :=
  match l.lookup? controller control with
  | none => 0
  | some e =>
    if e.kind = .button then (if Line.testMask state e.offset e.mask then 1 else 0)
    else if e.kind.isAxis then Line.axisAt state e.offset
    else 0

/-- Stores a value in a control; controls outside the layout are left alone. -/
def write (l : Layout) (state : Bytes) (controller control : Int) (v : Int16) : Bytes :=
  match l.lookup? controller control with
  | none => state
  | some e =>
    if e.kind = .button then
      if v != 0 then Line.setMask state e.offset e.mask else Line.clearMask state e.offset e.mask
    else if e.kind.isAxis then Line.setAxis state e.offset v
    else state

def newState (l : Layout) : Bytes := List.replicate l.storageSize 0

end Layout
end PortCodec
