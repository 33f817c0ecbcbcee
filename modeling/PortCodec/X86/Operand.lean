import PortCodec.Assembly.Basic

/-!
Operands of the instructions that codecs are compiled to: registers, memory, widths and the mode of
the processor.
-/

namespace PortCodec.X86

/-- The width of the instruction set. Modes other than the two are known by number only. -/
inductive Mode
  | bits32
  | bits64
  | other (bits : UInt8)
  deriving DecidableEq

namespace Mode

def ofBits (n : UInt8) : Mode := if n = 32 then .bits32 else if n = 64 then .bits64 else .other n

def bits : Mode → UInt8
  | .bits32 => 32
  | .bits64 => 64
  | .other n => n

def name (m : Mode) : String := s!"x86-{m.bits.toNat}"

end Mode

inductive Width
  | byte
  | word
  | dword
  | qword
  deriving DecidableEq

namespace Width

def size : Width → Nat
  | .byte => 1
  | .word => 2
  | .dword => 4
  | .qword => 8

/-- The width of a number of bytes; numbers that are no width count as four. -/
def ofSize (n : UInt8) : Width :=
  if n = 1 then .byte else if n = 2 then .word else if n = 8 then .qword else .dword

/-- The width of immediates: those of eight bytes are written as four. -/
def immediate : Width → Width
  | .qword => .dword
  | w => w

end Width

def Mode.pointer : Mode → Width
  | .bits64 => .qword
  | _ => .dword

/-- A register by number. Those from 8 on exist in 64-bit mode only, those from 16 on nowhere. -/
structure Register where
  number : UInt8
  deriving DecidableEq

namespace Register

def rax : Register := ⟨0⟩
def rcx : Register := ⟨1⟩
def rdx : Register := ⟨2⟩
def rbx : Register := ⟨3⟩
def rsp : Register := ⟨4⟩
def rbp : Register := ⟨5⟩
def rsi : Register := ⟨6⟩
def rdi : Register := ⟨7⟩
def r8 : Register := ⟨8⟩
def r9 : Register := ⟨9⟩
def r10 : Register := ⟨10⟩
def r11 : Register := ⟨11⟩
def r12 : Register := ⟨12⟩
def r13 : Register := ⟨13⟩
def r14 : Register := ⟨14⟩
def r15 : Register := ⟨15⟩

/-- The number that stands for no register. -/
def none : Register := ⟨255⟩

def names : List String :=
  ["rax", "rcx", "rdx", "rbx", "rsp", "rbp", "rsi", "rdi",
   "r8", "r9", "r10", "r11", "r12", "r13", "r14", "r15"]

def name (r : Register) : String := names.getD r.number.toNat "noreg"

def low (r : Register) : UInt8 := r.number &&& 7

/-- Whether the fourth bit of the number has to go to a REX byte. -/
def isExtended (r : Register) : Bool := r.number != 255 && 8 ≤ r.number

def existsIn (r : Register) : Mode → Bool
  | .bits64 => r.number ≤ 15
  | _ => r.number ≤ 7

/-- Whether the low byte of the register can be named only with a REX byte. -/
def lowByteNeedsRex (r : Register) : Bool := 4 ≤ r.number && r.number ≤ 7

end Register

/-- A place in memory: a base, an index times a scale, a displacement, or a label in place of the
base. -/
structure Memory where
  base : Option Register := none
  index : Option Register := none
  scale : UInt8 := 1
  /-- A signed number of 32 bits. -/
  displacement : Int := 0
  label : Option Int := none
  deriving DecidableEq

namespace Memory

def pointer (base : Register) (displacement : Int) : Memory := { base := some base, displacement }

def indexed (base index : Register) (scale : UInt8) : Memory :=
  { base := some base, index := some index, scale }

def labelled (l : Int) : Memory := { label := some l }

def table (l : Int) (index : Register) (scale : UInt8) : Memory :=
  { index := some index, scale, label := some l }

end Memory

/-- What stands in the field that may name a register or memory. -/
inductive Operand
  | register (r : Register)
  | memory (m : Memory)
  deriving DecidableEq

/-- The arithmetic operations, by the number in their opcodes. -/
structure Alu where
  number : UInt8
  deriving DecidableEq

namespace Alu

def add : Alu := ⟨0⟩
def or : Alu := ⟨1⟩
def and : Alu := ⟨4⟩
def sub : Alu := ⟨5⟩
def xor : Alu := ⟨6⟩
def cmp : Alu := ⟨7⟩

end Alu

/-- The condition of a jump, by the number in its opcode. -/
structure Condition where
  number : UInt8
  deriving DecidableEq

namespace Condition

def aboveOrEqual : Condition := ⟨3⟩
def equal : Condition := ⟨4⟩
def notEqual : Condition := ⟨5⟩
def above : Condition := ⟨7⟩
def notSign : Condition := ⟨9⟩

end Condition

end PortCodec.X86
