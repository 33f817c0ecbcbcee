import PortCodec.Assembly.Basic
import PortCodec.Text.Quoted

/-!
Where labels end up, and the code with its fields filled in. A label follows its bases down to a
place in the code, an address outside of it, or a label that nothing was bound to.
-/

namespace PortCodec.Assembly

/-- Where the chain of a label's bases ends. -/
inductive Anchor
  | inside (offset : Nat)
  | external (address : UInt64)
  | undefined (l : Int)
  deriving DecidableEq

inductive Cause
  | undefinedLabel (l : Int)
  | distance8 (d : Int)
  | distance32 (d : Int)
  | address32 (target : Nat)
  deriving DecidableEq

def hexNumber (n : Nat) : String := "0x" ++ String.ofList (Nat.toDigits 16 n)

def Cause.message : Cause → String
  | .undefinedLabel l => s!"asm: undefined label: {l}"
  | .distance8 d => s!"asm: displacement out of range: rel8 displacement {d}"
  | .distance32 d => s!"asm: displacement out of range: rel32 displacement {d}"
  | .address32 target =>
    s!"asm: displacement out of range: address {hexNumber target} does not fit 32 bits"

inductive LinkError
  | shortDestination (given needed : Nat)
  | relocation (offset : Nat) (cause : Cause)
  | global (name : String) (cause : Cause)
  /-- The room of a field is not what its patch writes. -/
  | badField
  deriving DecidableEq

def LinkError.message : LinkError → String
  | .shortDestination given needed => s!"asm: destination holds {given} bytes, need {needed}"
  | .relocation offset cause => s!"relocation at {hexNumber offset}: {cause.message}"
  | .global name cause => s!"global {name}: {cause.message}"
  | .badField => "runtime error"

def signed64 (n : Int) : Int := n.bmod (2 ^ 64)

/-- The bytes that a patch writes for a target, with `source` right behind the field. -/
def Patch.field (target source : UInt64) : Patch → Except Cause Bytes
  | .rel8 =>
    let d := signed64 ((target.toNat : Int) - source.toNat)
    if -128 ≤ d ∧ d ≤ 127 then .ok (Bytes.littleEndian 1 (d % 256).toNat) else .error (.distance8 d)
  | .rel32 trailing =>
    let d := signed64 ((target.toNat : Int) - source.toNat - trailing)
    if -2 ^ 31 ≤ d ∧ d < 2 ^ 31 then .ok (Bytes.littleEndian 4 (d % 2 ^ 32).toNat)
    else .error (.distance32 d)
  | .abs32 =>
    if target.toNat < 2 ^ 32 then .ok (Bytes.littleEndian 4 target.toNat)
    else .error (.address32 target.toNat)
  | .abs64 => .ok (Bytes.littleEndian 8 target.toNat)

def writeAt (buffer : Array UInt8) (i : Nat) : Bytes → Array UInt8
  | [] => buffer
  | b :: rest => writeAt (buffer.setIfInBounds i b) (i + 1) rest

end Assembly

open Assembly

namespace Assembler

/-- The end of a label's chain and the sum of the distances on the way. A base comes before the
labels that use it, so the chain ends. -/
def chain (a : Assembler) (l : Int) : Anchor × Int :=
  match a.binding? l with
  | none => (.undefined l, 0)
  | some .unbound => (.undefined l, 0)
  | some (.inside offset) => (.inside offset, 0)
  | some (.external address) => (.external address, 0)
  | some (.relative base delta) =>
    if _h : 0 ≤ base ∧ base < l then
      let (anchor, sum) := a.chain base
      (anchor, sum + delta)
    else (.undefined base, delta)
termination_by l.toNat
decreasing_by omega

/-- The place of a label, counted from the start of the code; false if it is not inside. -/
def offset (a : Assembler) (l : Int) : Int × Bool :=
  match a.chain l with
  | (.inside offset, sum) => (signed64 (offset + sum), true)
  | (_, sum) => (signed64 sum, false)

def resolve (a : Assembler) (l : Int) (base : UInt64) : Except Cause UInt64 :=
  match a.chain l with
  | (.inside offset, sum) => .ok (base + UInt64.ofNat offset + UInt64.ofInt sum)
  | (.external address, sum) => .ok (address + UInt64.ofInt sum)
  | (.undefined l, _) => .error (.undefinedLabel l)

/-- Exported names by place, then by name. -/
def globalNames (a : Assembler) : List String :=
  let placed := a.globals.map fun (name, l) => ((a.offset l).1, name)
  (placed.mergeSort fun x y => x.1 < y.1 || (x.1 = y.1 && x.2 ≤ y.2)).map (·.2)

def patchField (a : Assembler) (base : UInt64) (buffer : Array UInt8) (r : Relocation) :
    Except LinkError (Array UInt8) :=
  match a.resolve r.target base with
  | .error c => .error (.relocation r.offset c)
  | .ok target =>
    if r.size < 0 then .error .badField
    else match r.patch.field target (base + UInt64.ofNat (r.offset + r.size.toNat)) with
      | .error c => .error (.relocation r.offset c)
      | .ok field =>
        if r.size < r.patch.width then .error .badField
        else .ok (writeAt buffer r.offset field)

/-- Fills in fields in order, up to the first failure. -/
def patchFields (a : Assembler) (base : UInt64) (buffer : Array UInt8) :
    List Relocation → Array UInt8 × Option LinkError
  | [] => (buffer, none)
  | r :: rest =>
    match a.patchField base buffer r with
    | .ok buffer => a.patchFields base buffer rest
    | .error e => (buffer, some e)

def globalAddresses (a : Assembler) (base : UInt64) :
    List (String × Int) → Except LinkError (List (String × UInt64))
  | [] => .ok []
  | (name, l) :: rest =>
    match a.resolve l base with
    | .error c => .error (.global name c)
    | .ok address => (a.globalAddresses base rest).map ((name, address) :: ·)

/-- Copies the code to a buffer that will live at `base` and fills in its fields: the buffer
afterwards, and the addresses of the exported names. -/
def flush (a : Assembler) (buffer : Array UInt8) (base : UInt64) :
    Array UInt8 × Except LinkError (List (String × UInt64)) :=
  if buffer.size < a.size then (buffer, .error (.shortDestination buffer.size a.size))
  else
    let copied := writeAt buffer 0 a.code.toList
    match a.patchFields base copied a.relocations.toList with
    | (patched, some e) => (patched, .error e)
    | (patched, none) => (patched, a.globalAddresses base a.globals)

def link (a : Assembler) (base : UInt64) :
    Except LinkError (Array UInt8 × List (String × UInt64)) :=
  match a.flush (Array.replicate a.size 0) base with
  | (image, .ok globals) => .ok (image, globals)
  | (_, .error e) => .error e

end Assembler
end PortCodec
