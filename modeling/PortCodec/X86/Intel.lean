import PortCodec.Assembly.Link
import PortCodec.X86.Decoder

/-!
Instructions as text, in the syntax of the processor's manual: the target first, sizes spelled out,
numbers in base sixteen. Addresses that have a name are shown by it.
-/

namespace PortCodec.X86.Intel

open Assembly (hexNumber)

/-- The place of an instruction, and the name at or below an address with its own address. -/
structure Context where
  mode : Mode
  /-- The address behind the instruction. -/
  next : UInt64
  nearest : UInt64 → Option (String × UInt64)

/-- Names of registers that have letters. -/
def oldNames : List String := ["ax", "cx", "dx", "bx", "sp", "bp", "si", "di"]

def lowByteNames : List String := ["al", "cl", "dl", "bl", "spl", "bpl", "sil", "dil"]

def registerName (w : Width) (r : Register) : String :=
  let n := r.number.toNat
  if n < 8 then
    match w with
    | .byte => lowByteNames.getD n ""
    | .word => oldNames.getD n ""
    | .dword => "e" ++ oldNames.getD n ""
    | .qword => "r" ++ oldNames.getD n ""
  else
    let suffix := match w with
      | .byte => "b"
      | .word => "w"
      | .dword => "d"
      | .qword => ""
    s!"r{n}" ++ suffix

def signedHex (v : Int) : String := if v < 0 then "-" ++ hexNumber v.natAbs else hexNumber v.toNat

/-- A displacement with its sign. Only one of a single byte can be negative, one of four bytes is
shown as it is stored. -/
def displacementTerm (v : Int) : String :=
  if v < -128 then "+" ++ hexNumber (v % 2 ^ 32).toNat
  else (if v < 0 then "" else "+") ++ signedHex v

/-- An immediate: negative numbers keep their sign in 64-bit mode only. -/
def immediate (c : Context) (v : Int) : String :=
  if c.mode = .bits32 then hexNumber (v % 2 ^ 32).toNat else signedHex v

/-- The immediate of a move of four bytes may be an address. -/
def moveImmediate (c : Context) (w : Width) (v : Int) : String :=
  let address := UInt64.ofInt v
  match if w = .word ∨ w = .qword then none else c.nearest address with
  | some (name, base) => if address = base then s!"${name}"
    else s!"${name}+{(address - base).toNat}"
  | none => immediate c v

def addressText (c : Context) (address : UInt64) : String :=
  match c.nearest address with
  | some (name, base) => if base = address then name else hexNumber address.toNat
  | none => hexNumber address.toNat

def target (c : Context) (distance : Int) : String := addressText c (c.next + UInt64.ofInt distance)

def sizeName : Width → String
  | .byte => "byte "
  | .word => "word "
  | .dword => "dword "
  | .qword => "qword "

def memory (c : Context) (w : Option Width) (m : Memory) : String :=
  let size := match w with
    | some w => sizeName w
    | none => ""
  let pointer := c.mode.pointer
  let inner := match m.label with
    | some d => addressText c (c.next + UInt64.ofInt d)
    | none =>
      let base := match m.base with
        | some r => registerName pointer r
        | none => ""
      let index := match m.index with
        | some r =>
          (if m.base.isSome then "+" else "") ++ registerName pointer r ++ s!"*{m.scale.toNat}"
        | none => ""
      let place := base ++ index
      if m.displacement = 0 then place
      else if place = "" then hexNumber (m.displacement % 2 ^ 64).toNat
      else place ++ displacementTerm m.displacement
  size ++ "ptr [" ++ inner ++ "]"

def operand (c : Context) (w : Width) : Operand → String
  | .register r => registerName w r
  | .memory m => memory c (some w) m

def aluName (op : Alu) : String :=
  ["add", "or", "adc", "sbb", "and", "sub", "xor", "cmp"].getD op.number.toNat ""

def conditionName (n : Condition) : String :=
  ["o", "no", "b", "nb", "z", "nz", "be", "nbe", "s", "ns", "p", "np", "l", "nl", "le", "nle"].getD
    n.number.toNat ""

def text (c : Context) (i : Instruction) : String :=
  let reg := registerName
  let ptr := c.mode.pointer
  match i with
  | .mov w dst src => s!"mov {operand c w dst}, {reg w src}"
  | .load w dst src => s!"mov {reg w dst}, {memory c (some w) src}"
  | .movImmediate w dst v => s!"mov {operand c w dst}, {moveImmediate c w v}"
  | .loadZero dst w src => s!"movzx {reg .dword dst}, {memory c (some w) src}"
  | .loadSign dst w src => s!"movsx {reg .dword dst}, {memory c (some w) src}"
  | .alu op w dst src => s!"{aluName op} {reg w dst}, {reg w src}"
  | .aluImmediate op w dst v => s!"{aluName op} {operand c w dst}, {immediate c v}"
  | .test w a b => s!"test {reg w a}, {reg w b}"
  | .testImmediate w a v => s!"test {operand c w a}, {immediate c v}"
  | .inc w r => s!"inc {reg w r}"
  | .dec w r => s!"dec {reg w r}"
  | .neg w r => s!"neg {reg w r}"
  | .div w r => s!"div {reg w r}"
  | .shl w r n => s!"shl {reg w r}, {hexNumber n.toNat}"
  | .shr w r n => s!"shr {reg w r}, {hexNumber n.toNat}"
  | .imul w dst src v => s!"imul {reg w dst}, {reg w src}, {immediate c v}"
  | .lea dst src => s!"lea {reg ptr dst}, {memory c none src}"
  | .push r => s!"push {reg ptr r}"
  | .pop r => s!"pop {reg ptr r}"
  | .ret => "ret"
  | .jmp d => s!"jmp {target c d}"
  | .jmpShort d => s!"jmp {target c d}"
  | .jcc n d => s!"j{conditionName n} {target c d}"
  | .jccShort n d => s!"j{conditionName n} {target c d}"
  | .call d => s!"call {target c d}"
  | .jmpMemory m => s!"jmp {memory c (some ptr) m}"
  | .address d => target c d

end PortCodec.X86.Intel
