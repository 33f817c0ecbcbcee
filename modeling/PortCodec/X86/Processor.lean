import PortCodec.X86.Execution

/-!
Running code in a memory of segments. Code may use what lies in a segment and nothing else. The
machine goes on until it gets to a given address; meanwhile its registers and its memory are
gathered in tables now and then, so that they are found as quickly at the end as at the start.
-/

namespace PortCodec.X86

inductive Access
  | read
  | write
  | execute
  deriving DecidableEq

structure Segment where
  start : Nat
  bytes : Array UInt8
  access : Access

namespace Segment

def contains (s : Segment) (x : Nat) : Bool := s.start ≤ x && x < s.start + s.bytes.size

def byte (s : Segment) (x : Nat) : UInt8 := s.bytes.getD (x - s.start) 0

/-- The segment with the bytes that a memory has for it. -/
def gathered (memory : Nat → UInt8) (s : Segment) : Segment :=
  if s.access = .write then
    { s with bytes := Array.ofFn fun i : Fin s.bytes.size => memory (s.start + i) }
  else s

end Segment

/-- The segment of an address. Where segments overlap, the first counts. -/
def segmentAt? (segments : List Segment) (x : Nat) : Option Segment :=
  segments.find? (·.contains x)

def memoryOf (segments : List Segment) (x : Nat) : UInt8 :=
  match segmentAt? segments x with
  | some s => s.byte x
  | none => 0

def Guard.of (mode : Mode) (segments : List Segment) : Guard where
  mode
  readable x := (segmentAt? segments x).isSome
  writable x := (segmentAt? segments x).any (·.access = .write)
  executable x := (segmentAt? segments x).any (·.access = .execute)

namespace Machine

def registerCount : Nat := 16

/-- The same machine, with its registers and what code may have written in tables. -/
def settled (segments : List Segment) (m : Machine) : Machine :=
  let bank := Array.ofFn fun i : Fin registerCount => m.registers ⟨UInt8.ofNat i⟩
  let segments := segments.map (·.gathered m.memory)
  { m with
    registers := fun r =>
      if h : r.number.toNat < bank.size then bank[r.number.toNat] else m.registers r
    memory := memoryOf segments }

/-- The steps from one settled machine to the next. -/
def stretch : Nat := 64

/-- Runs the machine until it gets to an address, and settles it after `left` steps. -/
def runTo (g : Guard) (segments : List Segment) (stop left : Nat) (m : Machine) : Option Machine :=
  match left with
  | 0 => m.settled segments |>.runTo g segments stop stretch
  | left + 1 =>
    if m.next = stop then some m
    else match m.step g with
      | none => none
      | some m => m |>.runTo g segments stop left
partial_fixpoint

def slice (m : Machine) (start length : Nat) : Bytes :=
  (List.range length).map fun i => m.memory (start + i)

end Machine
end PortCodec.X86
