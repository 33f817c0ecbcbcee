import PortCodec.X86.Operand

/-!
The instructions that codecs are compiled to. Jumps and calls name labels.
-/

namespace PortCodec.X86

inductive Instruction
  /-- Stores a register in a register or memory. -/
  | mov (w : Width) (dst : Operand) (src : Register)
  | load (w : Width) (dst : Register) (src : Memory)
  | movImmediate (w : Width) (dst : Operand) (v : Int)
  /-- Loads a byte or word with zeros above it. -/
  | loadZero (dst : Register) (w : Width) (src : Memory)
  /-- Loads a byte or word with its sign above it. -/
  | loadSign (dst : Register) (w : Width) (src : Memory)
  | alu (op : Alu) (w : Width) (dst src : Register)
  | aluImmediate (op : Alu) (w : Width) (dst : Operand) (v : Int)
  | test (w : Width) (a b : Register)
  | testImmediate (w : Width) (a : Operand) (v : Int)
  | inc (w : Width) (r : Register)
  | dec (w : Width) (r : Register)
  | neg (w : Width) (r : Register)
  | div (w : Width) (r : Register)
  | shl (w : Width) (r : Register) (n : UInt8)
  | shr (w : Width) (r : Register) (n : UInt8)
  /-- Stores a register times a number. -/
  | imul (w : Width) (dst src : Register) (v : Int)
  | lea (dst : Register) (src : Memory)
  | push (r : Register)
  | pop (r : Register)
  | ret
  | jmp (l : Int)
  | jmpShort (l : Int)
  | jcc (c : Condition) (l : Int)
  | jccShort (c : Condition) (l : Int)
  | call (l : Int)
  /-- Jumps to an address held in memory. -/
  | jmpMemory (m : Memory)
  /-- The address of a label, as data. -/
  | address (l : Int)
  deriving DecidableEq

end PortCodec.X86
