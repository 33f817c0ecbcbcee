import PortCodec.X86.Instruction

/-!
Reading instructions back from their bytes. In place of labels stand the numbers found in the code:
distances of jumps, calls and addresses relative to the instruction.
-/

namespace PortCodec.X86.Decoder

structure Rex where
  wide : Bool := false
  reg : Bool := false
  index : Bool := false
  base : Bool := false

def Rex.ofByte (b : UInt8) : Rex :=
  { wide := b &&& 8 != 0, reg := b &&& 4 != 0, index := b &&& 2 != 0, base := b &&& 1 != 0 }

def register (extended : Bool) (low : UInt8) : Register := ⟨if extended then 8 + low else low⟩

def signed? (k : Nat) (bs : Bytes) : Option (Int × Bytes) :=
  if bs.length < k then none
  else some ((Bytes.toNatLE (bs.take k) : Int).bmod (Nat.pow 256 k), bs.drop k)

def mod (b : UInt8) : UInt8 := b >>> 6
def reg (b : UInt8) : UInt8 := (b >>> 3) &&& 7
def rm (b : UInt8) : UInt8 := b &&& 7

def scale (s : UInt8) : UInt8 := 1 <<< s

def displacement? (m : UInt8) (bs : Bytes) : Option (Int × Bytes) :=
  if m = 0 then some (0, bs) else signed? (if m = 1 then 1 else 4) bs

/-- Memory with a base or an index, behind the operand byte. -/
def scaled? (rex : Rex) (m : UInt8) (sib : UInt8) (bs : Bytes) : Option (Memory × Bytes) :=
  let index := register rex.index (reg sib)
  let index := if index = .rsp then none else some index
  if rm sib = 5 ∧ m = 0 then do
    let (displacement, bs) ← signed? 4 bs
    return ({ index, scale := scale (mod sib), displacement }, bs)
  else do
    let (displacement, bs) ← displacement? m bs
    let scale := if index.isSome then scale (mod sib) else 1
    return ({ base := some (register rex.base (rm sib)), index, scale, displacement }, bs)

/-- The memory that an operand byte announces. Without a base, an address is relative to the
instruction in 64-bit mode. -/
def memory? (mode : Mode) (rex : Rex) (b : UInt8) (bs : Bytes) : Option (Memory × Bytes) :=
  if rm b = 4 then
    match bs with
    | sib :: bs => scaled? rex (mod b) sib bs
    | [] => none
  else if rm b = 5 ∧ mod b = 0 then do
    let (n, bs) ← signed? 4 bs
    return (if mode = .bits64 then { label := some n } else { displacement := n }, bs)
  else do
    let (displacement, bs) ← displacement? (mod b) bs
    return (.pointer (register rex.base (rm b)) displacement, bs)

/-- The register field, the three bits it holds, and the other operand. -/
def operands? (mode : Mode) (rex : Rex) (bs : Bytes) :
    Option (Register × UInt8 × Operand × Bytes) :=
  match bs with
  | [] => none
  | b :: bs =>
    let field := register rex.reg (reg b)
    if mod b = 3 then some (field, reg b, .register (register rex.base (rm b)), bs)
    else (memory? mode rex b bs).map fun (m, bs) => (field, reg b, .memory m, bs)

/-- An immediate. Bytes are read without a sign. -/
def immediate? (w : Width) (bs : Bytes) : Option (Int × Bytes) :=
  match w with
  | .byte => match bs with
    | b :: bs => some (b.toNat, bs)
    | [] => none
  | w => signed? w.immediate.size bs

def conditionOf (b : UInt8) : Condition := ⟨b &&& 15⟩

def extended? (mode : Mode) (rex : Rex) (b : UInt8) (bs : Bytes) :
    Option (Instruction × Bytes) := do
  if 0x80 ≤ b ∧ b ≤ 0x8f then
    let (d, bs) ← signed? 4 bs
    return (.jcc (conditionOf b) d, bs)
  else
    let (r, _, operand, bs) ← operands? mode rex bs
    match operand with
    | .register _ => none
    | .memory m =>
      if b = 0xb6 then return (.loadZero r .byte m, bs)
      else if b = 0xb7 then return (.loadZero r .word m, bs)
      else if b = 0xbe then return (.loadSign r .byte m, bs)
      else if b = 0xbf then return (.loadSign r .word m, bs)
      else none

/-- Instructions whose opcode goes on in the register field. -/
def group? (mode : Mode) (rex : Rex) (w : Width) (b : UInt8) (bs : Bytes) :
    Option (Instruction × Bytes) := do
  let (_, more, operand, bs) ← operands? mode rex bs
  if b = 0x80 ∨ b = 0x81 then
    let (v, bs) ← immediate? w bs
    return (.aluImmediate ⟨more⟩ w operand v, bs)
  else if b = 0x83 then
    let (v, bs) ← signed? 1 bs
    return (.aluImmediate ⟨more⟩ w operand v, bs)
  else if b = 0xc6 ∨ b = 0xc7 then
    if more != 0 then none
    let (v, bs) ← immediate? w bs
    return (.movImmediate w operand v, bs)
  else if (b = 0xf6 ∨ b = 0xf7) ∧ more = 0 then
    let (v, bs) ← immediate? w bs
    return (.testImmediate w operand v, bs)
  else match operand with
    | .memory m => if b = 0xff ∧ more = 4 then return (.jmpMemory m, bs) else none
    | .register r =>
      if b = 0xc0 ∨ b = 0xc1 then
        match bs with
        | n :: bs =>
          if more = 4 then return (.shl w r n, bs)
          else if more = 5 then return (.shr w r n, bs)
          else none
        | [] => none
      else if b = 0xf6 ∨ b = 0xf7 then
        if more = 3 then return (.neg w r, bs)
        else if more = 6 then return (.div w r, bs)
        else none
      else if more = 0 then return (.inc w r, bs)
      else if more = 1 then return (.dec w r, bs)
      else none

def pair? (mode : Mode) (rex : Rex) (w : Width) (b : UInt8) (bs : Bytes) :
    Option (Instruction × Bytes) := do
  let (r, _, operand, bs) ← operands? mode rex bs
  if b = 0x88 ∨ b = 0x89 then return (.mov w operand r, bs)
  else match operand with
    | .memory m =>
      if b = 0x8a ∨ b = 0x8b then return (.load w r m, bs)
      else if b = 0x8d ∧ w = mode.pointer then return (.lea r m, bs)
      else none
    | .register s =>
      if b = 0x84 ∨ b = 0x85 then return (.test w s r, bs)
      else if b = 0x6b then
        let (v, bs) ← signed? 1 bs
        return (.imul w r s v, bs)
      else if b = 0x69 then
        let (v, bs) ← immediate? w bs
        return (.imul w r s v, bs)
      else if b < 0x40 ∧ b &&& 7 < 2 then return (.alu ⟨b >>> 3⟩ w s r, bs)
      else none

/-- Opcodes whose last bit tells bytes from the other widths. -/
def isSized (b : UInt8) : Bool :=
  b < 0x40 || [0x80, 0x84, 0x88, 0x8a, 0xc0, 0xc6, 0xf6, 0xfe].contains b

def opcode? (mode : Mode) (small : Bool) (rex : Rex) : Bytes → Option (Instruction × Bytes)
  | [] => none
  | b :: bs =>
    let full : Width := if rex.wide then .qword else if small then .word else .dword
    let w : Width := if isSized b && b &&& 1 = 0 then .byte else full
    if b = 0x0f then
      match bs with
      | b :: bs => extended? mode rex b bs
      | [] => none
    else if b = 0xc3 then some (.ret, bs)
    else if b = 0xe8 then (signed? 4 bs).map fun (d, bs) => (.call d, bs)
    else if b = 0xe9 then (signed? 4 bs).map fun (d, bs) => (.jmp d, bs)
    else if b = 0xeb then (signed? 1 bs).map fun (d, bs) => (.jmpShort d, bs)
    else if 0x70 ≤ b ∧ b ≤ 0x7f then
      (signed? 1 bs).map fun (d, bs) => (.jccShort (conditionOf b) d, bs)
    else if 0x50 ≤ b ∧ b ≤ 0x57 then some (.push (register rex.base (b &&& 7)), bs)
    else if 0x58 ≤ b ∧ b ≤ 0x5f then some (.pop (register rex.base (b &&& 7)), bs)
    else if 0xb8 ≤ b ∧ b ≤ 0xbf ∧ !rex.wide then
      (immediate? full bs).map fun (v, bs) =>
        (.movImmediate full (.register (register rex.base (b &&& 7))) v, bs)
    else if [0x80, 0x81, 0x83, 0xc0, 0xc1, 0xc6, 0xc7, 0xf6, 0xf7, 0xfe, 0xff].contains b then
      group? mode rex w b bs
    else pair? mode rex w b bs

/-- The instruction at the start of a text, and the bytes behind it. -/
def decode? (mode : Mode) (bs : Bytes) : Option (Instruction × Bytes) :=
  let (small, bs) := match bs with
    | 0x66 :: bs => (true, bs)
    | bs => (false, bs)
  match bs with
  | [] => none
  | b :: rest =>
    if mode = .bits64 ∧ b &&& 0xf0 = 0x40 then opcode? mode small (.ofByte b) rest
    else opcode? mode small {} bs

end PortCodec.X86.Decoder
