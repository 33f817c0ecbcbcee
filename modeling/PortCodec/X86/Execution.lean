import PortCodec.X86.Decoder
import PortCodec.X86.Machine

/-!
Running machine code. A step decodes the bytes at the next address and carries the instruction
out; an instruction that is not understood, an access that the guard forbids, a division that
fails and a jump on an undefined flag stop the machine.
-/

namespace PortCodec.X86

def Width.ofInt (w : Width) (v : Int) : Nat := (v % w.span).toNat

def Width.toInt (w : Width) (n : Nat) : Int := (n : Int).bmod w.span

/-- The flags of a sum or difference `r` of `a` and `b`; for a difference, `b` counts with the other
sign. -/
def Flags.ofSum (w : Width) (a b r : Nat) (carry difference : Bool) : Flags :=
  let negative (n : Nat) : Bool := w.span ≤ 2 * n
  let overflow := (negative a == (negative b != difference)) && (negative r != negative a)
  .ofResult w r (some carry) (some overflow)

/-- The result of an arithmetic operation, if it is kept, and its flags. -/
def Alu.apply? (op : Alu) (w : Width) (a b : Nat) : Option (Option Nat × Flags) :=
  let sum := (a + b) % w.span
  let difference := (a + w.span - b) % w.span
  match op.number.toNat with
  | 0 => some (some sum, .ofSum w a b sum (w.span ≤ a + b) false)
  | 1 => some (some (a ||| b), .ofResult w (a ||| b) (some false) (some false))
  | 4 => some (some (a &&& b), .ofResult w (a &&& b) (some false) (some false))
  | 5 => some (some difference, .ofSum w a b difference (a < b) true)
  | 6 => some (some (a ^^^ b), .ofResult w (a ^^^ b) (some false) (some false))
  | 7 => some (none, .ofSum w a b difference (a < b) true)
  | _ => none

namespace Machine

def alu (g : Guard) (place : Int → Nat) (m : Machine) (op : Alu) (w : Width)
    (dst : Operand) (b : Nat) :
    Option Machine := do
  let a ← m.fetch g place w dst
  let (result, flags) ← op.apply? w a b
  match result with
  | some r => ({ m with flags }).assign g place w dst r
  | none => return { m with flags }

/-- Counts a register up or down; the carry stays. -/
def count (m : Machine) (w : Width) (r : Register) (up : Bool) : Option Machine :=
  if isPlain w r then
    let a := m.get w r
    let v := if up then (a + 1) % w.span else (a + w.span - 1) % w.span
    let flags := { Flags.ofSum w a 1 v false (!up) with carry := m.flags.carry }
    some ({ m with flags }.set w r v)
  else none

/-- Divides the accumulator and its extension. -/
def divide (m : Machine) (w : Width) (r : Register) : Option Machine :=
  if isPlain w r then
    let divisor := m.get w r
    let dividend := if w = .byte then m.get .word .rax else m.get w .rdx * w.span + m.get w .rax
    let quotient := dividend / divisor
    let remainder := dividend % divisor
    if divisor = 0 ∨ w.span ≤ quotient then none
    else if w = .byte then
      some ({ m with flags := {} }.set .word .rax (remainder * w.span + quotient))
    else some (({ m with flags := {} }.set w .rax quotient).set w .rdx remainder)
  else none

/-- Shifts a register. The count is taken modulo the width, at least 32. -/
def shift (m : Machine) (w : Width) (r : Register) (n : UInt8) (left : Bool) : Option Machine :=
  if isPlain w r then
    let n := n.toNat % (if w = .qword then 64 else 32)
    if n = 0 then some m
    else
      let a := m.get w r
      let v := if left then a * Nat.pow 2 n % w.span else a / Nat.pow 2 n
      let last := if left then a.testBit (8 * w.size - n) else a.testBit (n - 1)
      let carry := if n ≤ 8 * w.size then some last else none
      let top (k : Nat) : Bool := w.span ≤ 2 * k
      let overflow := if n = 1 then some (if left then top v != last else top a) else none
      some ({ m with flags := .ofResult w v carry overflow }.set w r v)
  else none

def branch (place : Int → Nat) (m : Machine) (c : Condition) (l : Int) : Option Machine := do
  if ← c.holds? m.flags then return { m with next := place l } else return m

/-- Carries out an instruction on a machine whose next address is already behind it. The numbers in
jumps and labelled operands name the addresses that `place` gives. -/
def execute (g : Guard) (place : Int → Nat) (m : Machine) : Instruction → Option Machine
  | .mov w dst src =>
    if isPlain w src then m.assign g place w dst (m.get w src) else none
  | .load w dst src => do
    m.assign g place w (.register dst) (← m.load g w (m.address g place src))
  | .movImmediate w dst v => m.assign g place w dst (w.ofInt v)
  | .loadZero dst w src => do
    return m.set .dword dst (← m.load g w (m.address g place src))
  | .loadSign dst w src => do
    let v ← m.load g w (m.address g place src)
    return m.set .dword dst (Width.ofInt .dword (w.toInt v))
  | .alu op w dst src =>
    if isPlain w src then m.alu g place op w (.register dst) (m.get w src) else none
  | .aluImmediate op w dst v => m.alu g place op w dst (w.ofInt v)
  | .test w a b => do
    let n := (← m.fetch g place w (.register a)) &&& (← m.fetch g place w (.register b))
    return { m with flags := .ofResult w n (some false) (some false) }
  | .testImmediate w a v => do
    let n := (← m.fetch g place w a) &&& w.ofInt v
    return { m with flags := .ofResult w n (some false) (some false) }
  | .inc w r => m.count w r true
  | .dec w r => m.count w r false
  | .neg w r =>
    if isPlain w r then
      let a := m.get w r
      let v := (w.span - a) % w.span
      some ({ m with flags := .ofSum w 0 a v (a ≠ 0) true }.set w r v)
    else none
  | .div w r => m.divide w r
  | .shl w r n => m.shift w r n true
  | .shr w r n => m.shift w r n false
  | .imul w dst src v =>
    if w = .byte then none
    else
      let product := w.toInt (m.get w src) * w.toInt (w.ofInt v)
      let kept := w.ofInt product
      let lost := some (decide (w.toInt kept ≠ product))
      some ({ m with flags := { carry := lost, overflow := lost } }.set w dst kept)
  | .lea dst src => some (m.set g.mode.pointer dst (m.address g place src))
  | .push r => m.pushed g (m.get g.mode.pointer r)
  | .pop r => do
    let (v, m) ← m.popped g
    return m.set g.mode.pointer r v
  | .ret => do
    let (v, m) ← m.popped g
    return { m with next := v }
  | .jmp l | .jmpShort l => some { m with next := place l }
  | .jcc c l | .jccShort c l => m.branch place c l
  | .call l => do
    let m ← m.pushed g m.next
    return { m with next := place l }
  | .jmpMemory x => do
    if g.jumps (m.address g place x) then
      return { m with next := ← m.load g g.mode.pointer (m.address g place x) }
    else none
  | .address _ => none

/-- The bytes at the next address, no more than an instruction can have. -/
def window (g : Guard) (m : Machine) : Bytes :=
  (((List.range 15).map fun i => (m.next + i) % g.space).takeWhile g.executable).map m.memory

/-- Carries out the instruction at the next address. Distances count from behind it. -/
def step (g : Guard) (m : Machine) : Option Machine := do
  let bytes := m.window g
  let (i, rest) ← Decoder.decode? g.mode bytes
  let next := (m.next + (bytes.length - rest.length)) % g.space
  ({ m with next }).execute g (fun d => ((next + d) % g.space).toNat) i

end Machine

end PortCodec.X86
