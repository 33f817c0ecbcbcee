import PortCodec.Layout.Basic
import PortCodec.X86.Convention
import PortCodec.X86.Instruction

/-!
The routines of a compiled codec, as lists of instructions and marks. Four of them are called from
outside; they find their arguments after a context pointer that they ignore:

* `serialize` gets a state and room for a line, and returns the length of the line;
* `deserialize` gets a state and a line that has an end, and returns the length that was read;
* `read` gets a state, a controller and a control, and returns the value;
* `write` gets a value too.
-/

namespace PortCodec.Program

open X86

/-- The places of a program that are jumped to, called or exported. -/
inductive Mark
  | serialize | deserialize | read | write
  | formatAxis | parseAxis | skipField
  | readTable | writeTable
  | readEnd | writeEnd
  /-- Inside `formatAxis`. -/
  | positive | divide | output | formatted
  /-- Inside `parseAxis`. -/
  | blanks | nextBlank | sign | plus | digits | parsed | signed
  /-- Inside `skipField`. -/
  | nextByte | separator | skipped
  /-- Behind the button of a step. -/
  | serialized (step : Nat)
  | deserialized (step : Nat)
  /-- The code for an entry of the index. -/
  | readEntry (i : Nat)
  | writeEntry (i : Nat)
  deriving DecidableEq

def Mark.label : Mark → Int
  | .serialize => 0
  | .deserialize => 1
  | .read => 2
  | .write => 3
  | .formatAxis => 4
  | .parseAxis => 5
  | .skipField => 6
  | .readTable => 7
  | .writeTable => 8
  | .readEnd => 9
  | .writeEnd => 10
  | .positive => 11
  | .divide => 12
  | .output => 13
  | .formatted => 14
  | .blanks => 15
  | .nextBlank => 16
  | .sign => 17
  | .plus => 18
  | .digits => 19
  | .parsed => 20
  | .signed => 21
  | .nextByte => 22
  | .separator => 23
  | .skipped => 24
  | .serialized i => 25 + 4 * i
  | .deserialized i => 26 + 4 * i
  | .readEntry i => 27 + 4 * i
  | .writeEntry i => 28 + 4 * i

inductive Item
  | code (i : Instruction)
  | mark (m : Mark)
  /-- Fill bytes up to a multiple of a number. -/
  | align (n : Nat)

/-- The registers that routines use, and those they save at entry. -/
structure Frame where
  state : Register
  text : Register
  start : Register
  cursor : Register
  controller : Register
  control : Register
  value : Register
  table : Register
  saved : List Register

/-- In 64-bit mode the routines get by with registers that need no saving. -/
def Frame.wide : Frame where
  state := .r10
  text := .r11
  start := .r9
  cursor := .r8
  controller := .r11
  control := .r9
  value := .rax
  table := .rcx
  saved := []

def Frame.narrow : Frame where
  state := .rsi
  text := .rdi
  start := .rbx
  cursor := .rbp
  controller := .rdi
  control := .rbx
  value := .rax
  table := .none
  saved := [.rbx, .rsi, .rdi]

def Frame.of (m : Mode) : Frame := if m = .bits32 then .narrow else .wide

structure Target where
  layout : Layout
  convention : Convention

namespace Target

def mode (t : Target) : Mode := t.convention.mode

def frame (t : Target) : Frame := .of t.mode

def pointer (t : Target) : Width := t.mode.pointer

def entry (t : Target) (m : Mark) : List Item :=
  .mark m :: t.frame.saved.map fun r => .code (.push r)

def leave (t : Target) : List Item :=
  (t.frame.saved.reverse.map fun r => .code (.pop r)) ++ [.code .ret]

def stateAt (t : Target) (offset : Nat) : Memory := .pointer t.frame.state offset

def textByte (t : Target) : Memory := .pointer t.frame.text 0

end Target

structure Move where
  dst : Register
  src : Register
  deriving DecidableEq

/-- The first move whose target no other move still has to read, and the other moves. -/
def Move.pick : (before : List Move) → List Move → Option (Move × List Move)
  | _, [] => none
  | before, m :: after =>
    if (before ++ after).any fun o => o.src = m.dst then pick (before ++ [m]) after
    else some (m, before ++ after)

/-- Moves in an order in which none overwrites the source of a later one. There is none if they go
in a circle. -/
def Move.order : (fuel : Nat) → List Move → Option (List Move)
  | _, [] => some []
  | 0, _ => none
  | fuel + 1, moves => do
    let (m, rest) ← Move.pick [] moves
    return m :: (← Move.order fuel rest)

/-- The moves of arguments that come in registers other than their own. -/
def Target.argumentMoves (t : Target) (dsts : List Register) : List Move :=
  (dsts.zipIdx 1).filterMap fun (dst, i) =>
    match t.convention.argument i t.frame.saved.length with
    | .register src => if src = dst then none else some ⟨dst, src⟩
    | .memory _ => none

def Target.argumentLoads (t : Target) (dsts : List Register) : List Item :=
  (dsts.zipIdx 1).filterMap fun (dst, i) =>
    match t.convention.argument i t.frame.saved.length with
    | .register _ => none
    | .memory m => some (.code (.load t.pointer dst m))

/-- Brings the arguments behind the context pointer to their registers, those on the stack last. -/
def Target.loadArguments (t : Target) (dsts : List Register) : Option (List Item) := do
  let moves := t.argumentMoves dsts
  let ordered ← Move.order moves.length moves
  return (ordered.map fun m => .code (.mov t.pointer (.register m.dst) m.src)) ++
    t.argumentLoads dsts

/-- The distance from the start of the text, as result. -/
def Target.textLength (t : Target) : List Item :=
  [.code (.mov t.pointer (.register .rax) t.frame.text),
    .code (.alu .sub t.pointer .rax t.frame.start)]

def Target.serializeStep (t : Target) (i : Nat) : Step → List Item
  | .button offset mask char => [
      .code (.testImmediate .byte (.memory (t.stateAt offset)) mask.toNat),
      .code (.movImmediate .byte (.memory t.textByte) 46),
      .code (.jccShort .equal (Mark.serialized i).label),
      .code (.movImmediate .byte (.memory t.textByte) char.toNat),
      .mark (.serialized i),
      .code (.inc t.pointer t.frame.text)]
  | .axis offset => [
      .code (.loadSign .rax .word (t.stateAt offset)),
      .code (.call Mark.formatAxis.label),
      .code (.alu .add t.pointer t.frame.text .rax)]
  | .leadingPipe | .pipe => [
      .code (.movImmediate .byte (.memory t.textByte) 124),
      .code (.inc t.pointer t.frame.text)]
  | .finish => t.textLength
  | .finishEmpty => [.code (.alu .xor .dword .rax .rax)]

def Target.serialize (t : Target) : Option (List Item) := do
  let arguments ← t.loadArguments [t.frame.state, t.frame.text]
  return t.entry .serialize ++ arguments ++
    [.code (.mov t.pointer (.register t.frame.start) t.frame.text)] ++
    t.layout.program.zipIdx.flatMap (fun (s, i) => t.serializeStep i s) ++ t.leave

/-- Stores zeros in the whole state, four bytes at a time while they fit. -/
def Target.clearState (t : Target) : List Item :=
  let n := t.layout.storageSize
  let zero (w : Width) (offset : Nat) : Item :=
    .code (.movImmediate w (.memory (t.stateAt offset)) 0)
  (List.range (n / 4)).map (fun i => zero .dword (4 * i)) ++
    (if n % 4 < 2 then [] else [zero .word (n / 4 * 4)]) ++
    (if n % 2 = 0 then [] else [zero .byte (n - 1)])

/-- Jumps if the low byte of the first register is one of those given. -/
def jumpOnByte (bs : List Int) (m : Mark) : List Item :=
  bs.flatMap fun b => [
    .code (.aluImmediate .cmp .byte (.register .rax) b), .code (.jccShort .equal m.label)]

def Target.deserializeStep (t : Target) (i : Nat) : Step → List Item
  | .button offset mask _ =>
    .code (.loadZero .rax .byte t.textByte) ::
      jumpOnByte [124, 13, 10] (.deserialized i) ++ [
      .code (.test .byte .rax .rax),
      .code (.jccShort .equal (Mark.deserialized i).label),
      .code (.inc t.pointer t.frame.text)] ++
      jumpOnByte [46, 32] (.deserialized i) ++ [
      .code (.aluImmediate .or .byte (.memory (t.stateAt offset)) mask.toNat),
      .mark (.deserialized i)]
  | .axis offset => [
      .code (.call Mark.parseAxis.label),
      .code (.mov .word (.memory (t.stateAt offset)) .rax)]
  | .leadingPipe | .pipe => [.code (.call Mark.skipField.label)]
  | .finish => t.textLength
  | .finishEmpty => [.code (.movImmediate t.pointer (.register .rax) (-1))]

def Target.deserialize (t : Target) : Option (List Item) := do
  let arguments ← t.loadArguments [t.frame.state, t.frame.text]
  return t.entry .deserialize ++ arguments ++
    [.code (.mov t.pointer (.register t.frame.start) t.frame.text)] ++ t.clearState ++
    t.layout.program.zipIdx.flatMap (fun (s, i) => t.deserializeStep i s) ++ t.leave

/-- The jump through a table, with both indices checked and joined. -/
def Target.dispatch (t : Target) (table done : Mark) : List Item :=
  let f := t.frame
  [.code (.aluImmediate .cmp t.pointer (.register f.controller) t.layout.controllers),
   .code (.jcc .aboveOrEqual done.label),
   .code (.aluImmediate .cmp t.pointer (.register f.control) t.layout.stride),
   .code (.jcc .aboveOrEqual done.label)] ++
  (if t.layout.strideShift = 0 then []
    else [.code (.shl t.pointer f.controller (UInt8.ofNat t.layout.strideShift))]) ++
  [.code (.alu .add t.pointer f.controller f.control)] ++
  if t.mode = .bits64 then
    [.code (.lea f.table (.labelled table.label)),
     .code (.jmpMemory (.indexed f.table f.controller 8))]
  else [.code (.jmpMemory (.table table.label f.controller 4))]

def Target.readEntry (t : Target) (e : Entry) : List Item :=
  (if e.kind = .button then
    .code (.loadZero .rax .byte (t.stateAt e.offset)) ::
      (if e.bit = 0 then [] else [.code (.shr .dword .rax (UInt8.ofNat e.bit))]) ++
      [.code (.aluImmediate .and .dword (.register .rax) 1)]
  else [.code (.loadSign .rax .word (t.stateAt e.offset))]) ++ [.code (.jmp Mark.readEnd.label)]

def Target.writeEntry (t : Target) (e : Entry) : List Item :=
  (if e.kind = .button then [
    .code (.aluImmediate .and .byte (.memory (t.stateAt e.offset)) e.clearMask.toNat),
    .code (.test .word t.frame.value t.frame.value),
    .code (.jcc .equal Mark.writeEnd.label),
    .code (.aluImmediate .or .byte (.memory (t.stateAt e.offset)) e.mask.toNat)]
  else [.code (.mov .word (.memory (t.stateAt e.offset)) t.frame.value)]) ++
  [.code (.jmp Mark.writeEnd.label)]

def Target.entries (t : Target) (m : Nat → Mark) (body : Entry → List Item) : List Item :=
  t.layout.index.zipIdx.flatMap fun (e, i) => if e.isStored then .mark (m i) :: body e else []

def Target.read (t : Target) : Option (List Item) := do
  let f := t.frame
  let arguments ← t.loadArguments [f.state, f.controller, f.control]
  return t.entry .read ++ [.code (.alu .xor .dword .rax .rax)] ++ arguments ++
    t.dispatch .readTable .readEnd ++ t.entries .readEntry t.readEntry ++
    [.mark .readEnd] ++ t.leave

def Target.write (t : Target) : Option (List Item) := do
  let f := t.frame
  let arguments ← t.loadArguments [f.state, f.controller, f.control, f.value]
  return t.entry .write ++ arguments ++
    t.dispatch .writeTable .writeEnd ++ t.entries .writeEntry t.writeEntry ++
    [.mark .writeEnd] ++ t.leave

/-- Writes a blank and the decimal of the first register at the text; returns the length. The
digits are pushed on the stack, lowest first, above a zero. -/
def Target.formatAxis (t : Target) : List Item :=
  let cursor := t.frame.cursor
  let at0 : Operand := .memory (.pointer cursor 0)
  [.mark .formatAxis,
   .code (.push cursor),
   .code (.movImmediate .byte (.memory t.textByte) 32),
   .code (.lea cursor (.pointer t.frame.text 1)),
   .code (.test .dword .rax .rax),
   .code (.jccShort .notSign Mark.positive.label),
   .code (.movImmediate .byte at0 45),
   .code (.inc t.pointer cursor),
   .code (.neg .dword .rax),
   .mark .positive,
   .code (.alu .xor .dword .rdx .rdx),
   .code (.push .rdx),
   .code (.movImmediate .dword (.register .rcx) 10),
   .mark .divide,
   .code (.alu .xor .dword .rdx .rdx),
   .code (.div .dword .rcx),
   .code (.aluImmediate .add .dword (.register .rdx) 48),
   .code (.push .rdx),
   .code (.test .dword .rax .rax),
   .code (.jccShort .notEqual Mark.divide.label),
   .mark .output,
   .code (.pop .rax),
   .code (.test .dword .rax .rax),
   .code (.jccShort .equal Mark.formatted.label),
   .code (.mov .byte at0 .rax),
   .code (.inc t.pointer cursor),
   .code (.jmpShort Mark.output.label),
   .mark .formatted,
   .code (.mov t.pointer (.register .rax) cursor),
   .code (.alu .sub t.pointer .rax t.frame.text),
   .code (.pop cursor),
   .code .ret]

/-- Reads a decimal with an optional sign at the text, which moves behind it. -/
def Target.parseAxis (t : Target) : List Item :=
  let text := t.frame.text
  let compare (b : Int) : Item := .code (.aluImmediate .cmp .byte (.register .rcx) b)
  [.mark .parseAxis,
   .code (.alu .xor .dword .rax .rax),
   .code (.alu .xor .dword .rdx .rdx),
   .mark .blanks,
   .code (.loadZero .rcx .byte t.textByte),
   compare 32,
   .code (.jccShort .equal Mark.nextBlank.label),
   compare 9,
   .code (.jccShort .notEqual Mark.sign.label),
   .mark .nextBlank,
   .code (.inc t.pointer text),
   .code (.jmpShort Mark.blanks.label),
   .mark .sign,
   compare 45,
   .code (.jccShort .notEqual Mark.plus.label),
   .code (.inc .dword .rdx),
   .code (.inc t.pointer text),
   .code (.jmpShort Mark.digits.label),
   .mark .plus,
   compare 43,
   .code (.jccShort .notEqual Mark.digits.label),
   .code (.inc t.pointer text),
   .mark .digits,
   .code (.loadZero .rcx .byte t.textByte),
   .code (.aluImmediate .sub .dword (.register .rcx) 48),
   .code (.aluImmediate .cmp .dword (.register .rcx) 9),
   .code (.jccShort .above Mark.parsed.label),
   .code (.imul .dword .rax .rax 10),
   .code (.alu .add .dword .rax .rcx),
   .code (.inc t.pointer text),
   .code (.jmpShort Mark.digits.label),
   .mark .parsed,
   .code (.test .dword .rdx .rdx),
   .code (.jccShort .equal Mark.signed.label),
   .code (.neg .dword .rax),
   .mark .signed,
   .code .ret]

/-- Moves the text behind the next separator, or to the end of the line. -/
def Target.skipField (t : Target) : List Item :=
  let text := t.frame.text
  [.mark .skipField,
   .mark .nextByte,
   .code (.loadZero .rax .byte t.textByte)] ++
  jumpOnByte [124] .separator ++ jumpOnByte [13, 10] .skipped ++
  [.code (.test .byte .rax .rax),
   .code (.jccShort .equal Mark.skipped.label),
   .code (.inc t.pointer text),
   .code (.jmpShort Mark.nextByte.label),
   .mark .separator,
   .code (.inc t.pointer text),
   .mark .skipped,
   .code .ret]

def Target.routines? (t : Target) : Option (List Item) := do
  return (← t.serialize) ++ (← t.deserialize) ++ (← t.read) ++ (← t.write) ++
    t.formatAxis ++ t.parseAxis ++ t.skipField

def Target.opening (t : Target) (table : Mark) : List Item := [.align t.pointer.size, .mark table]

/-- Addresses for all entries of the index: their code, or the end of the routine. -/
def Target.slots (t : Target) (done : Mark) (m : Nat → Mark) : List Item :=
  t.layout.index.zipIdx.map fun (e, i) =>
    .code (.address (if e.isStored then (m i).label else done.label))

/-- A table of addresses and what comes before it. -/
structure Table where
  name : String
  opening : List Item
  slots : List Item

def Target.tables (t : Target) : List Table :=
  [⟨"read_table", t.opening .readTable, t.slots .readEnd .readEntry⟩,
   ⟨"write_table", t.opening .writeTable, t.slots .writeEnd .writeEntry⟩]

end PortCodec.Program
