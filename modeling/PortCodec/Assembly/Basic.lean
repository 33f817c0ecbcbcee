import PortCodec.Bytes

/-!
Machine code under construction: bytes, labels that may be used before they are bound, and fields
to be filled in once the address of the code is known. A label is its number in the arena; other
numbers can be asked for but name nothing.
-/

namespace PortCodec.Assembly

def noLabel : Int := -1

/-- What a label stands for. -/
inductive Binding
  | unbound
  /-- A place in the code. -/
  | inside (offset : Nat)
  | external (address : UInt64)
  | relative (base : Int) (delta : Int)
  deriving DecidableEq

inductive Patch
  /-- The signed distance from behind the field, in one byte. -/
  | rel8
  /-- The signed distance in four bytes, from `trailing` bytes behind the field. -/
  | rel32 (trailing : Int)
  | abs32
  | abs64
  deriving DecidableEq

def Patch.width : Patch → Nat
  | .rel8 => 1
  | .rel32 _ | .abs32 => 4
  | .abs64 => 8

structure Relocation where
  patch : Patch
  target : Int
  offset : Nat
  /-- The room kept for the field; `flush` refuses one that the patch does not fit. -/
  size : Int
  deriving DecidableEq

inductive Misuse
  | definedTwice (l : Int)
  | unknownBase (l : Int)
  | outsideArena (l : Int)
  deriving DecidableEq

def Misuse.message : Misuse → String
  | .definedTwice l => s!"asm: label {l} defined twice"
  | .unknownBase l => s!"asm: relative label on unknown base {l}"
  | .outsideArena _ => "runtime error"

end Assembly

open Assembly

structure Assembler where
  code : Array UInt8 := #[]
  labels : Array Binding := #[]
  relocations : Array Relocation := #[]
  /-- Exported names, each once. -/
  globals : List (String × Int) := []

namespace Assembler

def size (a : Assembler) : Nat := a.code.size

def bytes (a : Assembler) (bs : Bytes) : Assembler := { a with code := a.code ++ bs }

def word (a : Assembler) (k n : Nat) : Assembler := a.bytes (Bytes.littleEndian k n)

def pad (a : Assembler) (n : Int) (fill : UInt8) : Assembler :=
  a.bytes (List.replicate n.toNat fill)

def align (a : Assembler) (n : Int) (fill : UInt8) : Assembler :=
  if n ≤ 1 ∨ (a.size : Int) % n = 0 then a else a.pad (n - a.size % n) fill

def binding? (a : Assembler) (l : Int) : Option Binding :=
  if 0 ≤ l then a.labels[l.toNat]? else none

def addLabel (a : Assembler) (b : Binding) : Assembler × Int :=
  ({ a with labels := a.labels.push b }, a.labels.size)

def newLabel (a : Assembler) : Assembler × Int := a.addLabel .unbound

/-- Binds a label to the current place, which can be done once. -/
def define (a : Assembler) (l : Int) : Except Misuse Assembler :=
  match a.binding? l with
  | none => .error (.outsideArena l)
  | some .unbound => .ok { a with labels := a.labels.setIfInBounds l.toNat (.inside a.size) }
  | some _ => .error (.definedTwice l)

def here (a : Assembler) : Assembler × Int := a.addLabel (.inside a.size)

def external (a : Assembler) (address : UInt64) : Assembler × Int := a.addLabel (.external address)

def relative (a : Assembler) (base : Int) (delta : Int) : Except Misuse (Assembler × Int) :=
  match a.binding? base with
  | none => .error (.unknownBase base)
  | some _ => .ok (a.addLabel (.relative base delta))

def exportAs (a : Assembler) (name : String) (l : Int) : Assembler :=
  if a.globals.any fun g => g.1 = name then
    { a with globals := a.globals.map fun g => if g.1 = name then (name, l) else g }
  else { a with globals := a.globals ++ [(name, l)] }

def globalLabel (a : Assembler) (name : String) : Int :=
  match a.globals.find? fun g => g.1 = name with
  | some (_, l) => l
  | none => noLabel

def relocate (a : Assembler) (size : Int) (patch : Patch) (target : Int) : Assembler :=
  { a with relocations := a.relocations.push { patch, target, offset := a.size, size } }.pad size 0

end Assembler
end PortCodec
