import PortCodec.Assembly.Basic
import PortCodec.X86.Instruction

/-!
The encoding of instructions: an optional size byte, an optional REX byte, the opcode, the operand
bytes, a displacement and an immediate. The first operand that cannot be encoded stops the emitter
for good.
-/

namespace PortCodec.X86

open Assembly (Misuse)

inductive OperandFault
  | noRegister (r : Register) (m : Mode)
  | wideOperand (m : Mode)
  | stackIndex
  | needsRex (m : Mode)
  | labelWithBase
  | labelWithIndex
  | badScale (n : UInt8)
  | noBase
  | longByte (v : Int)
  | longWord (v : Int)
  deriving DecidableEq

def OperandFault.message (f : OperandFault) : String :=
  "x86: invalid operand: " ++ match f with
    | .noRegister r m => s!"register {r.name} not available in {m.name}"
    | .wideOperand m => s!"64-bit operand in {m.name}"
    | .stackIndex => "rsp cannot be an index register"
    | .needsRex m => s!"operand needs a REX prefix in {m.name}"
    | .labelWithBase => "label operand cannot have a base register"
    | .labelWithIndex => "indexed label operand needs 32-bit mode"
    | .badScale n => s!"invalid scale {n.toNat}"
    | .noBase => "memory operand needs a base register"
    | .longByte v => s!"immediate {v} does not fit a byte"
    | .longWord v => s!"immediate {v} does not fit a word"

inductive Field
  | register (r : Register)
  /-- Three more bits of the opcode. -/
  | opcode (n : UInt8)

def Field.low : Field → UInt8
  | .register r => r.low
  | .opcode n => n &&& 7

structure Form where
  width : Width
  opcode : Bytes
  field : Field
  operand : Operand
  immediate : Bytes := []

namespace Form

def missing? (mode : Mode) (r : Register) : Option OperandFault :=
  if r.existsIn mode then none else some (.noRegister r mode)

def memoryFault? (mode : Mode) (m : Memory) : Option OperandFault :=
  match m.base.bind (missing? mode) with
  | some f => some f
  | none => m.index.bind fun r =>
    match missing? mode r with
    | some f => some f
    | none => if r = .rsp then some .stackIndex else none

def registers (f : Form) : List Register :=
  (match f.field with | .register r => [r] | .opcode _ => []) ++
    (match f.operand with | .register r => [r] | .memory _ => [])

/-- The low four bits of the REX byte: wide operand, then the fourth bits of the three registers. -/
def rexBits (f : Form) : UInt8 :=
  let extended (r : Register) (bit : UInt8) : UInt8 := if r.isExtended then bit else 0
  let optional (r : Option Register) (bit : UInt8) : UInt8 :=
    match r with
    | some r => extended r bit
    | none => 0
  (if f.width = .qword then 8 else 0) |||
    (match f.field with | .register r => extended r 4 | .opcode _ => 0) |||
    (match f.operand with
      | .register r => extended r 1
      | .memory m => optional m.base 1 ||| optional m.index 2)

/-- Whether a byte register needs a REX byte of whatever value. -/
def forcesRex (f : Form) : Bool := f.width = .byte && f.registers.any (·.lowByteNeedsRex)

/-- Why the registers of a form cannot be encoded, the register field first. -/
def fault? (mode : Mode) (f : Form) : Option OperandFault :=
  if f.width = .qword && mode ≠ .bits64 then some (.wideOperand mode)
  else match f.registers.findSome? (missing? mode) with
    | some fault => some fault
    | none =>
      match (match f.operand with | .memory m => memoryFault? mode m | .register _ => none) with
      | some fault => some fault
      | none =>
        if mode = .bits32 && (f.rexBits != 0 || f.forcesRex) then some (.needsRex mode) else none

def head (f : Form) : Bytes :=
  (if f.width = .word then [0x66] else []) ++
    (if f.rexBits != 0 || f.forcesRex then [0x40 ||| f.rexBits] else []) ++ f.opcode

end Form

def scaleBits? (n : UInt8) : Option UInt8 :=
  if n = 0 ∨ n = 1 then some 0
  else if n = 2 then some 1
  else if n = 4 then some 2
  else if n = 8 then some 3
  else none

def fitsByte (v : Int) : Bool := -128 ≤ v && v ≤ 127

def modRM (mod reg rm : UInt8) : UInt8 := mod <<< 6 ||| reg <<< 3 ||| rm

def basedOperand (reg : UInt8) (m : Memory) : Except OperandFault Bytes :=
  match m.base with
  | none => .error .noBase
  | some base =>
    let mod : UInt8 :=
      if m.displacement = 0 && base.low != 5 then 0 else if fitsByte m.displacement then 1 else 2
    let displacement :=
      if mod = 0 then
        [] else Bytes.littleEndian (if mod = 1 then 1 else 4) (m.displacement % 2 ^ 32).toNat
    match m.index with
    | none =>
      if base.low != 4 then .ok (modRM mod reg base.low :: displacement)
      else .ok (modRM mod reg 4 :: modRM 0 4 base.low :: displacement)
    | some index =>
      match scaleBits? m.scale with
      | none => .error (.badScale m.scale)
      | some s => .ok (modRM mod reg 4 :: modRM s index.low base.low :: displacement)

/-- The bytes before the address of an operand with a label, and how the address is filled in: as a
distance in 64-bit mode, as it is otherwise. -/
def labelOperand (mode : Mode) (reg : UInt8) (m : Memory) (trailing : Nat) :
    Except OperandFault (Bytes × Assembly.Patch) :=
  if m.base.isSome then .error .labelWithBase
  else if mode = .bits64 then
    if m.index.isSome then .error .labelWithIndex else .ok ([modRM 0 reg 5], .rel32 trailing)
  else
    match m.index with
    | none => .ok ([modRM 0 reg 5], .abs32)
    | some index =>
      match scaleBits? m.scale with
      | none => .error (.badScale m.scale)
      | some s => .ok ([modRM 0 reg 4, modRM s index.low 5], .abs32)

/-- The bytes of an immediate, which has to fit as a signed or an unsigned number. -/
def immediate (w : Width) (v : Int) : Except OperandFault Bytes :=
  let bytes := Bytes.littleEndian w.immediate.size (v % 2 ^ 32).toNat
  match w with
  | .byte => if v < -128 ∨ 255 < v then .error (.longByte v) else .ok bytes
  | .word => if v < -32768 ∨ 65535 < v then .error (.longWord v) else .ok bytes
  | _ => .ok bytes

structure Emitter where
  mode : Mode
  assembler : Assembler := {}
  /-- The first operand that could not be encoded. -/
  error : Option OperandFault := none

namespace Emitter

/-- Notes a fault, unless there is one already. -/
def fail (e : Emitter) (f : OperandFault) : Emitter :=
  if e.error.isNone then { e with error := some f } else e

def bytes (e : Emitter) (bs : Bytes) : Emitter := { e with assembler := e.assembler.bytes bs }

def relocate (e : Emitter) (size : Nat) (patch : Assembly.Patch) (l : Int) : Emitter :=
  { e with assembler := e.assembler.relocate size patch l }

/-- The operand bytes of memory with a label; a displacement makes a label of its own. -/
def labelMemory (e : Emitter) (reg : UInt8) (m : Memory) (l : Int) (trailing : Nat) :
    Emitter × Option Misuse :=
  let target :=
    if m.displacement = 0 then .ok (e.assembler, l) else e.assembler.relative l m.displacement
  match target with
  | .error misuse => (e, some misuse)
  | .ok (assembler, target) =>
    let e := { e with assembler }
    match labelOperand e.mode reg m trailing with
    | .error f => (e.fail f, none)
    | .ok (bs, patch) => ((e.bytes bs).relocate 4 patch target, none)

def memory (e : Emitter) (reg : UInt8) (m : Memory) (trailing : Nat) : Emitter × Option Misuse :=
  match m.label with
  | some l => e.labelMemory reg m l trailing
  | none =>
    match basedOperand reg m with
    | .error f => (e.fail f, none)
    | .ok bs => (e.bytes bs, none)

/-- Writes a form. A fault of its memory is found only after the opcode is written. -/
def form (e : Emitter) (f : Form) : Emitter × Option Misuse :=
  if e.error.isSome then (e, none)
  else match f.fault? e.mode with
  | some fault => (e.fail fault, none)
  | none =>
    let e := e.bytes f.head
    match f.operand with
    | .register r => ((e.bytes [modRM 3 f.field.low r.low]).bytes f.immediate, none)
    | .memory m =>
      match e.memory f.field.low m f.immediate.length with
      | (e, some misuse) => (e, some misuse)
      | (e, none) => (e.bytes f.immediate, none)

/-- The bytes of an immediate. One that does not fit is a fault, and is cut. -/
def immediateBytes (e : Emitter) (w : Width) (v : Int) : Emitter × Bytes :=
  match immediate w v with
  | .ok bs => (e, bs)
  | .error fault => (e.fail fault, Bytes.littleEndian w.immediate.size (v % 2 ^ 32).toNat)

/-- A form with an immediate, which is looked at before anything is written. -/
def formWith (e : Emitter) (w : Width) (v : Int) (f : Bytes → Form) : Emitter × Option Misuse :=
  let (e, bs) := e.immediateBytes w v
  e.form (f bs)

def shortForm (e : Emitter) (w : Width) (opcode : UInt8) (r : Register) : Emitter :=
  if e.error.isSome then e
  else if r.existsIn e.mode then
    let rex := (if w = .qword then 8 else 0) ||| (if r.isExtended then 1 else 0)
    e.bytes ((if w = .word then [0x66] else []) ++ (if rex != 0 then [0x40 ||| rex] else []) ++
      [opcode + r.low])
  else e.fail (.noRegister r e.mode)

def shortFormWith (e : Emitter) (w : Width) (opcode : UInt8) (r : Register) (v : Int) : Emitter :=
  let (e, bs) := e.immediateBytes w v
  let e := e.shortForm w opcode r
  if e.error.isNone then e.bytes bs else e

def ret (e : Emitter) : Emitter := if e.error.isNone then e.bytes [0xc3] else e

/-- An opcode with the distance of a label behind it. -/
def jump (e : Emitter) (opcode : Bytes) (size : Nat) (patch : Assembly.Patch) (l : Int) : Emitter :=
  if e.error.isNone then (e.bytes opcode).relocate size patch l else e

def address (e : Emitter) (l : Int) : Emitter :=
  if e.error.isSome then e
  else if e.mode = .bits64 then e.relocate 8 .abs64 l
  else e.relocate 4 .abs32 l

/-- One of two opcodes: for bytes, and for the other widths. -/
def pick (w : Width) (forByte forFull : UInt8) : Bytes := [if w = .byte then forByte else forFull]

/-- A single byte where the number fits one, with the opcode for that. -/
def signedByte (v : Int) : Bytes := Bytes.littleEndian 1 (v % 256).toNat

def emit (e : Emitter) : Instruction → Emitter × Option Misuse
  | .mov w dst src => e.form ⟨w, pick w 0x88 0x89, .register src, dst, []⟩
  | .load w dst src => e.form ⟨w, pick w 0x8a 0x8b, .register dst, .memory src, []⟩
  | .movImmediate w (.memory m) v =>
    e.formWith w v fun bs => ⟨w, pick w 0xc6 0xc7, .opcode 0, .memory m, bs⟩
  | .movImmediate w (.register r) v =>
    if w = .byte ∨ w = .qword then
      e.formWith w v fun bs => ⟨w, pick w 0xc6 0xc7, .opcode 0, .register r, bs⟩
    else (e.shortFormWith w 0xb8 r v, none)
  | .loadZero dst w src =>
    e.form ⟨.dword, [0x0f, if w = .word then 0xb7 else 0xb6], .register dst, .memory src, []⟩
  | .loadSign dst w src =>
    e.form ⟨.dword, [0x0f, if w = .word then 0xbf else 0xbe], .register dst, .memory src, []⟩
  | .alu op w dst src =>
    e.form ⟨w, pick w (op.number <<< 3) (op.number <<< 3 ||| 1), .register src, .register dst, []⟩
  | .aluImmediate op w dst v =>
    if w = .byte then e.formWith w v fun bs => ⟨w, [0x80], .opcode op.number, dst, bs⟩
    else if fitsByte v then e.form ⟨w, [0x83], .opcode op.number, dst, signedByte v⟩
    else e.formWith w v fun bs => ⟨w, [0x81], .opcode op.number, dst, bs⟩
  | .test w a b => e.form ⟨w, pick w 0x84 0x85, .register b, .register a, []⟩
  | .testImmediate w a v =>
    e.formWith w v fun bs => ⟨w, pick w 0xf6 0xf7, .opcode 0, a, bs⟩
  | .inc w r => e.form ⟨w, pick w 0xfe 0xff, .opcode 0, .register r, []⟩
  | .dec w r => e.form ⟨w, pick w 0xfe 0xff, .opcode 1, .register r, []⟩
  | .neg w r => e.form ⟨w, pick w 0xf6 0xf7, .opcode 3, .register r, []⟩
  | .div w r => e.form ⟨w, pick w 0xf6 0xf7, .opcode 6, .register r, []⟩
  | .shl w r n => e.form ⟨w, pick w 0xc0 0xc1, .opcode 4, .register r, [n]⟩
  | .shr w r n => e.form ⟨w, pick w 0xc0 0xc1, .opcode 5, .register r, [n]⟩
  | .imul w dst src v =>
    if fitsByte v then e.form ⟨w, [0x6b], .register dst, .register src, signedByte v⟩
    else e.formWith w v fun bs => ⟨w, [0x69], .register dst, .register src, bs⟩
  | .lea dst src => e.form ⟨e.mode.pointer, [0x8d], .register dst, .memory src, []⟩
  | .push r => (e.shortForm .dword 0x50 r, none)
  | .pop r => (e.shortForm .dword 0x58 r, none)
  | .ret => (e.ret, none)
  | .jmp l => (e.jump [0xe9] 4 (.rel32 0) l, none)
  | .jmpShort l => (e.jump [0xeb] 1 .rel8 l, none)
  | .jcc c l => (e.jump [0x0f, 0x80 ||| c.number] 4 (.rel32 0) l, none)
  | .jccShort c l => (e.jump [0x70 ||| c.number] 1 .rel8 l, none)
  | .call l => (e.jump [0xe8] 4 (.rel32 0) l, none)
  | .jmpMemory m => e.form ⟨.dword, [0xff], .opcode 4, .memory m, []⟩
  | .address l => (e.address l, none)

end Emitter
end PortCodec.X86
