import PortCodec.Line.Codec

/-!
Lines and states in the buffers of a caller. The steps of a program are run one after the other, on
a line with a cursor. Each makes sure of the bytes it is about to use; one that would reach outside
of a buffer stops the work, and so does a program without an end. Where there is room, the calls do
to the buffers what `Layout.read`, `Layout.write`, `Layout.serialize` and `Layout.deserialize` say
of states and lines.
-/

namespace PortCodec

inductive BufferFault
  /-- A buffer that does not hold what the layout needs. -/
  | state (held needed : Nat)
  | text (held needed : Nat)
  /-- A place outside of a buffer or of the index. -/
  | outside
  /-- A program that has no steps left and did not end. -/
  | endless
  /-- Compiled code that did something it may not. -/
  | stopped
  deriving DecidableEq

def BufferFault.message : BufferFault → String
  | .state held needed => s!"codec: state buffer holds {held} bytes, layout needs {needed}"
  | .text held needed => s!"codec: text buffer holds {held} bytes, layout needs {needed}"
  | .outside | .endless | .stopped => "runtime error"

/-- The buffers of a call: a state, and text with room for more. -/
structure Buffers where
  state : Bytes
  text : Bytes := []
  deriving DecidableEq

/-- Work on buffers. What was done to them before it stops stays done. -/
abbrev BufferWork := ExceptT BufferFault (StateM Buffers)

namespace BufferWork

variable {α β : Type}

def on (work : BufferWork α) (b : Buffers) : Except BufferFault α × Buffers :=
  Id.run (StateT.run (ExceptT.run work) b)

@[simp] theorem on_pure (a : α) (b : Buffers) : (pure a : BufferWork α).on b = (.ok a, b) := rfl

@[simp] theorem on_throw (e : BufferFault) (b : Buffers) :
    (throw e : BufferWork α).on b = (.error e, b) := rfl

@[simp] theorem on_get (b : Buffers) : (get : BufferWork Buffers).on b = (.ok b, b) := rfl

@[simp] theorem on_set (b b' : Buffers) : (set b' : BufferWork Unit).on b = (.ok (), b') := rfl

@[simp] theorem on_lift (x : Except BufferFault α) (b : Buffers) :
    (liftM x : BufferWork α).on b = (x, b) := by
  cases x <;> rfl

@[simp] theorem on_modify (f : Buffers → Buffers) (b : Buffers) :
    (modify f : BufferWork Unit).on b = (.ok (), f b) := rfl

theorem on_bind (work : BufferWork α) (next : α → BufferWork β) (b : Buffers) :
    (work >>= next).on b = match work.on b with
      | (.ok a, b') => (next a).on b'
      | (.error e, b') => (.error e, b') := by
  unfold on
  simp only [bind, ExceptT.bind, ExceptT.mk, ExceptT.run, ExceptT.bindCont, StateT.bind, StateT.run,
    Id.run]
  cases work b with
  | mk result b' => cases result <;> rfl

/-- The result of work and the buffers after it, unless it was stopped. -/
def result (work : BufferWork α) (b : Buffers) : Except BufferFault (α × Buffers) :=
  match work.on b with
  | (.ok a, b) => .ok (a, b)
  | (.error e, _) => .error e

def needState (n : Nat) : BufferWork Unit := do
  unless n ≤ (← get).state.length do throw .outside

def putText (i : Nat) (bs : Bytes) : BufferWork Unit := do
  unless i + bs.length ≤ (← get).text.length do throw .outside
  modify fun b => { b with text := b.text.take i ++ bs ++ b.text.drop (i + bs.length) }

end BufferWork

open BufferWork

/-- How many bytes of the state a step needs, from the first on. -/
def Step.reach : Step → Nat
  | .button offset .. => offset + 1
  | .axis offset => offset + 2
  | _ => 0

/-- How many bytes of the state a control needs, from the first on. -/
def Entry.reach (e : Entry) : Nat :=
  if e.kind = .button then e.offset + 1 else if e.kind.isAxis then e.offset + 2 else 0

namespace Line

/-- Writes the text of a step to a place; the length of that text. -/
def writeStepIn (i : Nat) (s : Step) : BufferWork Nat := do
  needState s.reach
  let text := stepText (← get).state s
  putText i text
  return text.length

/-- Writes the text of a program from `start` on, `n` bytes of which are there: its length. -/
def writeStepsIn (start n : Nat) : List Step → BufferWork Nat
  | [] => throw .endless
  | .finish :: _ => return n
  | .finishEmpty :: _ => return 0
  | s :: rest => do
    let k ← writeStepIn (start + n) s
    writeStepsIn start (n + k) rest

section Cursor

variable (line : Array UInt8)

/-- The byte at a place of a line. There are zeros behind its end, and nothing before its start. -/
def byteFrom (pos : Int) : Except BufferFault UInt8 :=
  if line.size ≤ pos then .ok 0
  else if pos < 0 then .error .outside
  else .ok (line.getD pos.toNat 0)

theorem lt_size_of_byteFrom {pos : Int} {b : UInt8} (h : byteFrom line pos = .ok b) (hb : b ≠ 0) :
    pos < line.size := by
  unfold byteFrom at h
  split at h
  · cases h
    exact absurd rfl hb
  · omega

/-- The place behind the rest of a field and its separator, if there is one. -/
def skipFieldFrom (pos : Int) : Except BufferFault Int :=
  match h : byteFrom line pos with
  | .error e => .error e
  | .ok b =>
    if b = 124 then .ok (pos + 1)
    else if hend : isLineEnd b then .ok pos
    else skipFieldFrom (pos + 1)
termination_by (line.size - pos).toNat
decreasing_by
  have hb : b ≠ 0 := by
    rintro rfl
    exact hend rfl
  have := lt_size_of_byteFrom line h hb
  omega

def skipBlanksFrom (pos : Int) : Except BufferFault Int :=
  match h : byteFrom line pos with
  | .error e => .error e
  | .ok b => if hb : b = 32 ∨ b = 9 then skipBlanksFrom (pos + 1) else .ok pos
termination_by (line.size - pos).toNat
decreasing_by
  have := lt_size_of_byteFrom line h (by rcases hb with rfl | rfl <;> decide)
  omega

/-- Whether there is a minus, and the place behind an optional sign. -/
def signFrom (pos : Int) : Except BufferFault (Bool × Int) := do
  let b ← byteFrom line pos
  return if b = 45 then (true, pos + 1) else if b = 43 then (false, pos + 1) else (false, pos)

/-- Adds digits to an accumulator of 32 bits that wraps around. -/
def digitsFrom (acc : Int32) (pos : Int) : Except BufferFault (Int32 × Int) :=
  match h : byteFrom line pos with
  | .error e => .error e
  | .ok b =>
    if hb : b - 48 ≤ 9 then digitsFrom (acc * 10 + (b - 48).toUInt32.toInt32) (pos + 1)
    else .ok (acc, pos)
termination_by (line.size - pos).toNat
decreasing_by
  have hzero : b ≠ 0 := by
    rintro rfl
    exact absurd hb (by decide)
  have := lt_size_of_byteFrom line h hzero
  omega

def axisFrom (pos : Int) : Except BufferFault (Int16 × Int) := do
  let pos ← skipBlanksFrom line pos
  let (negative, pos) ← signFrom line pos
  let (acc, pos) ← digitsFrom line 0 pos
  return ((if negative then -acc else acc).toInt16, pos)

/-- Reads a step from a place of a line on: the place behind it. -/
def readStepIn (pos : Int) : Step → BufferWork Int
  | .button offset mask _ => do
    let b ← byteFrom line pos
    if isFieldEnd b then return pos
    unless b = 46 ∨ b = 32 do
      needState (offset + 1)
      modify fun b => { b with state := setMask b.state offset mask }
    return pos + 1
  | .axis offset => do
    let (v, pos) ← axisFrom line pos
    needState (offset + 2)
    modify fun b => { b with state := setAxis b.state offset v }
    return pos
  | .leadingPipe | .pipe => skipFieldFrom line pos
  | .finish | .finishEmpty => return pos

/-- Reads a program from a place of a line on: the number of bytes used of the line. -/
def readStepsIn (pos : Int) : List Step → BufferWork Int
  | [] => throw .endless
  | .finish :: _ => return pos
  | .finishEmpty :: _ => return Layout.blank
  | s :: rest => do
    let pos ← readStepIn line pos s
    readStepsIn pos rest

end Cursor

end Line

namespace Layout

def needControl (l : Layout) (controller control : Int) : BufferWork Unit :=
  if 0 ≤ controller ∧ controller < l.controllers ∧ 0 ≤ control ∧ control < l.stride then
    match l.index[controller.toNat * l.stride + control.toNat]? with
    | none => throw .outside
    | some e => needState e.reach
  else return ()

def readIn (l : Layout) (controller control : Int) : BufferWork Int16 := do
  l.needControl controller control
  return l.read (← get).state controller control

def writeIn (l : Layout) (controller control : Int) (v : Int16) : BufferWork Unit := do
  l.needControl controller control
  modify fun b => { b with state := l.write b.state controller control v }

def serializeIn (l : Layout) (start : Nat) : BufferWork Nat := Line.writeStepsIn start 0 l.program

def deserializeIn (l : Layout) (line : Bytes) : BufferWork Int := do
  needState l.storageSize
  modify fun b => { b with state := Line.clearFirst l.storageSize b.state }
  Line.readStepsIn line.toArray 0 l.program

end Layout
end PortCodec
