import PortCodec.X86.Operand

/-!
The processor as far as compiled codecs use it: registers, status flags and byte memory. All values
are natural numbers below the span of their width, and addresses wrap around at the span of a
pointer. Memory is guarded: a place that may not be read or written stops the machine.
-/

namespace PortCodec.X86

def Width.span (w : Width) : Nat := Nat.pow 256 w.size

/-- The status flags. A flag that an instruction leaves undefined has no value. -/
structure Flags where
  carry : Option Bool := none
  zero : Option Bool := none
  sign : Option Bool := none
  overflow : Option Bool := none
  parity : Option Bool := none

namespace Flags

/-- Whether the low byte of a number has an even number of ones. -/
def evenParity (n : Nat) : Bool := (List.range 8).countP (n.testBit ·) % 2 = 0

def ofResult (w : Width) (n : Nat) (carry overflow : Option Bool) : Flags :=
  { carry, overflow, zero := some (n = 0), sign := some (w.span ≤ 2 * n),
    parity := some (evenParity n) }

end Flags

/-- What two flags say together, if both are defined. -/
def Flags.both (f : Bool → Bool → Bool) (a b : Option Bool) : Option Bool := do return f (← a) (← b)

/-- What the conditions with the numbers `2 * n` and `2 * n + 1` ask, if it is defined. -/
def Flags.answer? (f : Flags) : (n : Nat) → Option Bool
  | 0 => f.overflow
  | 1 => f.carry
  | 2 => f.zero
  | 3 => both (· || ·) f.carry f.zero
  | 4 => f.sign
  | 5 => f.parity
  | 6 => both (· != ·) f.sign f.overflow
  | 7 => both (· || ·) f.zero (both (· != ·) f.sign f.overflow)
  | _ => none

/-- Whether a condition holds, if the flags it asks for are defined. An odd number is the opposite
of the number before it. -/
def Condition.holds? (c : Condition) (f : Flags) : Option Bool :=
  (f.answer? (c.number.toNat / 2)).map (· != decide (c.number.toNat % 2 = 1))

structure Guard where
  mode : Mode
  readable : Nat → Bool
  writable : Nat → Bool
  executable : Nat → Bool
  /-- The places that jumps may load their address from. -/
  jumps : Nat → Bool := fun _ => true

def Guard.space (g : Guard) : Nat := g.mode.pointer.span

def Guard.allows (g : Guard) (q : Nat → Bool) (a n : Nat) : Bool :=
  (List.range n).all fun i => q ((a + i) % g.space)

@[ext]
structure Machine where
  registers : Register → Nat
  flags : Flags
  memory : Nat → UInt8
  /-- The address of the next instruction. -/
  next : Nat

def peek (space : Nat) (memory : Nat → UInt8) (a : Nat) : (n : Nat) → Bytes
  | 0 => []
  | n + 1 => memory (a % space) :: peek space memory (a + 1) n

def poke (space : Nat) (memory : Nat → UInt8) (a : Nat) : Bytes → Nat → UInt8
  | [] => memory
  | b :: bs =>
    let place := a % space
    poke space (fun x => if x = place then b else memory x) (a + 1) bs

/-- A register after a value of a width is put into it. Four bytes clear the upper half. -/
def Width.merge (w : Width) (old v : Nat) : Nat :=
  match w with
  | .byte | .word => old / w.span * w.span + v % w.span
  | .dword | .qword => v % w.span

namespace Machine

def get (m : Machine) (w : Width) (r : Register) : Nat := m.registers r % w.span

def set (m : Machine) (w : Width) (r : Register) (v : Nat) : Machine :=
  let merged := w.merge (m.registers r) v
  { m with registers := fun s => if s = r then merged else m.registers s }

def load (g : Guard) (m : Machine) (w : Width) (a : Nat) : Option Nat :=
  if g.allows g.readable a w.size then
    some (Bytes.toNatLE (peek g.space m.memory a w.size))
  else none

def store (g : Guard) (m : Machine) (w : Width) (a v : Nat) : Option Machine :=
  if g.allows g.writable a w.size then
    some { m with memory := poke g.space m.memory a (Bytes.littleEndian w.size v) }
  else none

/-- The address of an operand in memory. A scale of zero counts as one. -/
def address (g : Guard) (place : Int → Nat) (m : Machine) (x : Memory) : Nat :=
  let base : Nat := match x.label, x.base with
    | some l, _ => place l
    | none, some r => m.get g.mode.pointer r
    | none, none => 0
  let index : Nat := match x.index with
    | some r => m.get g.mode.pointer r * max 1 x.scale.toNat
    | none => 0
  ((base + index + x.displacement) % g.space).toNat

/-- Without a prefix byte the numbers 4 to 7 name other byte registers than with one; code that uses
them is left out. -/
def isPlain (w : Width) (r : Register) : Bool := w ≠ .byte || !r.lowByteNeedsRex

def fetch (g : Guard) (place : Int → Nat) (m : Machine) (w : Width) : Operand → Option Nat
  | .register r => if isPlain w r then some (m.get w r) else none
  | .memory x => m.load g w (m.address g place x)

def assign (g : Guard) (place : Int → Nat) (m : Machine) (w : Width) (dst : Operand) (v : Nat) :
    Option Machine :=
  match dst with
  | .register r => if isPlain w r then some (m.set w r v) else none
  | .memory x => m.store g w (m.address g place x) v

def pushed (g : Guard) (m : Machine) (v : Nat) : Option Machine :=
  let w := g.mode.pointer
  let top := (m.get w .rsp + w.span - w.size) % w.span
  (m.set w .rsp top).store g w top v

def popped (g : Guard) (m : Machine) : Option (Nat × Machine) := do
  let w := g.mode.pointer
  let v ← m.load g w (m.get w .rsp)
  return (v, m.set w .rsp (m.get w .rsp + w.size))

end Machine
end PortCodec.X86
