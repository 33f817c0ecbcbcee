import PortCodec.Hash.Blake2b
import PortCodec.Port.Basic

/-!
A layout says where each control of a port lies in the state and how a line spells the state:
an index of entries, `stride` of them for each controller, and a program of text steps.
-/

namespace PortCodec

inductive Step
  | button (offset : Nat) (mask : UInt8) (char : UInt8)
  | axis (offset : Nat)
  | leadingPipe
  | pipe
  | finish
  /-- The end of the program of a port without controllers. -/
  | finishEmpty
  deriving DecidableEq

namespace Step

def code : Step → UInt8
  | .button .. => 0
  | .axis _ => 1
  | .leadingPipe => 2
  | .pipe => 3
  | .finish => 4
  | .finishEmpty => 5

def codeName (n : UInt8) : String :=
  if n = 0 then "button"
  else if n = 1 then "axis"
  else if n = 2 then "leading-pipe"
  else if n = 3 then "pipe"
  else if n = 4 then "end"
  else if n = 5 then "end-empty"
  else s!"Op({n.toNat})"

def offset : Step → Nat
  | .button offset .. => offset
  | .axis offset => offset
  | _ => 0

def mask : Step → UInt8
  | .button _ mask _ => mask
  | _ => 0

def char : Step → UInt8
  | .button _ _ char => char
  | .leadingPipe | .pipe => 124
  | _ => 0

/-- The longest text that the step writes; an axis takes up to `" -32768"`. -/
def maxText : Step → Nat
  | .button .. | .leadingPipe | .pipe => 1
  | .axis _ => 7
  | _ => 0

end Step

structure Entry where
  kind : Kind := .null
  offset : Nat := 0
  mask : UInt8 := 0
  controller : Nat := 0
  control : Nat := 0
  deriving DecidableEq

namespace Entry

def clearMask (e : Entry) : UInt8 := ~~~ e.mask

/-- The number of zero bits below the lowest one bit of a byte; eight for zero. -/
def trailingZeros (b : UInt8) : Nat :=
  ((List.range 8).find? fun i => b.toNat.testBit i).getD 8

def bit (e : Entry) : Nat := trailingZeros e.mask

def isStored (e : Entry) : Bool := e.kind.isStored

end Entry

structure Layout where
  storageSize : Nat
  buttonBits : Nat
  axes : Nat
  controllers : Nat
  /-- Index slots for each controller, a power of two. -/
  stride : Nat
  system : Bool
  index : List Entry
  program : List Step
  deriving DecidableEq

namespace Layout

def lookup? (l : Layout) (controller control : Int) : Option Entry :=
  if 0 ≤ controller ∧ controller < l.controllers ∧ 0 ≤ control ∧ control < l.stride then
    l.index[controller.toNat * l.stride + control.toNat]?
  else none

def strideShift (l : Layout) : Nat := l.stride.log2

def maxTextSize (l : Layout) : Nat := l.program.foldr (fun step n => step.maxText + n) 0

def canonicalize (l : Layout) (state : Bytes) : Bytes :=
  if l.buttonBits % 8 = 0 then state
  else state.modify (l.buttonBits / 8) (· &&& UInt8.ofNat (Nat.pow 2 (l.buttonBits % 8) - 1))

/-- Whether `canonicalize` has a byte to work on. -/
def canCanonicalize (l : Layout) (state : Bytes) : Bool :=
  l.buttonBits % 8 = 0 || l.buttonBits / 8 < state.length

/-- The bytes that identify a layout: its numbers, its program without places, its kinds. -/
def identity (l : Layout) : Bytes :=
  Bytes.littleEndian 4 l.controllers ++ Bytes.littleEndian 4 l.stride ++
    [if l.system then 1 else 0] ++ l.program.flatMap (fun s => [s.code, s.char]) ++
    l.index.map (·.kind.code)

def fingerprint (l : Layout) : Bytes := Hash.Blake2b.digest l.identity

/-- The first eight bytes of the fingerprint, as shown to users. -/
def shortFingerprint (l : Layout) : String := Bytes.hex (l.fingerprint.take 8)

/-- The name under which generated files of a layout are kept. -/
def dumpName (l : Layout) : String := "portctrl-" ++ l.shortFingerprint

end Layout
end PortCodec
