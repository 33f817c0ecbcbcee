import PortCodec.Proofs.Encoding.Decoding

/-! What stands before an opcode. A size byte makes an operand two bytes wide, a bit of the REX byte
eight, and without a REX byte the numbers 4 to 7 do not name the low bytes of their registers. A
reading that looks at all of this gives back no less than one that passes over it. -/

namespace PortCodec.X86

variable {mode : Mode} {f : Form} {s : Shape} {i : Instruction}

/-- The width that the opcode of an instruction leaves to the bytes before it. -/
def Instruction.width? (mode : Mode) : Instruction → Option Width
  | .mov w .. | .load w .. | .movImmediate w .. | .alu _ w .. | .aluImmediate _ w ..
  | .test w .. | .testImmediate w ..
  | .inc w _ | .dec w _ | .neg w _ | .div w _ | .shl w .. | .shr w .. | .imul w .. => some w
  | .loadZero .. | .loadSign .. => some .dword
  | .lea .. => some mode.pointer
  | _ => none

def Operand.registers : Operand → List Register
  | .register r => [r]
  | .memory _ => []

/-- The registers that an instruction names with its own width. -/
def Instruction.registers : Instruction → List Register
  | .mov _ x r => r :: x.registers
  | .movImmediate _ x _ | .aluImmediate _ _ x _ | .testImmediate _ x _ => x.registers
  | .load _ r _ | .inc _ r | .dec _ r | .neg _ r | .div _ r | .shl _ r _ | .shr _ r _ => [r]
  | .alu _ _ a b | .test _ a b | .imul _ a b _ => [b, a]
  | _ => []

namespace Decoder

def hasSize (bs : Bytes) : Bool := bs.head? = some 0x66

def rex? (mode : Mode) (bs : Bytes) : Option UInt8 :=
  (if hasSize bs then bs.tail else bs).head?.filter fun b => mode = .bits64 && b &&& 0xf0 = 0x40

/-- Whether the bytes before the opcode are those of the instruction. -/
def fits (mode : Mode) (bs : Bytes) (i : Instruction) : Bool :=
  (!hasSize bs || i.width? mode = some .word) &&
    ((rex? mode bs).all fun b => !(Rex.ofByte b).wide || i.width? mode = some .qword) &&
    (i.width? mode ≠ some .byte || (rex? mode bs).isSome || i.registers.all fun r =>
      !r.lowByteNeedsRex)

/-- The instruction at the start of a text and the bytes behind it, by all of the rules. -/
def strict? (mode : Mode) (bs : Bytes) : Option (Instruction × Bytes) :=
  (decode? mode bs).filter fun x => fits mode bs x.1

end Decoder

open Decoder

/-- The bytes of an instruction begin with a size byte or none, a REX byte or none, and an
opcode. -/
inductive Opens (mode : Mode) (i : Instruction) : Bytes → Prop
  | intro (front : Bytes) {b : UInt8} (more : Bytes) (hb : IsOpcode b)
    (hrex : front = [] ∨ mode = .bits64 ∧
      ∃ x, front = [0x40 ||| rexByte x] ∧ (x.wide = true → i.width? mode = some .qword))
    (hnamed : i.width? mode = some .byte → front = [] →
      ∀ r ∈ i.registers, r.lowByteNeedsRex = false) :
    Opens mode i ((if i.width? mode = some .word then [0x66] else []) ++ front ++ b :: more)

theorem Opens.fits {bs : Bytes} (h : Opens mode i bs) (rest : Bytes) :
    fits mode (bs ++ rest) i = true := by
  obtain ⟨_, more, hb, rfl | ⟨rfl, x, rfl, hwide⟩, hnamed⟩ := h
  · by_cases hw : i.width? mode = some .word
    · simp [Decoder.fits, hw, hasSize, rex?, hb.2]
    · simpa [Decoder.fits, hw, hasSize, rex?, hb.1, hb.2, or_iff_not_imp_left] using fun hbyte =>
        hnamed hbyte rfl
  · obtain ⟨hhigh, hne⟩ := rexByte_high x
    by_cases hw : i.width? .bits64 = some .word
    · have hwide : x.wide = false := by simpa [hw] using hwide
      simp [Decoder.fits, hw, hasSize, rex?, hhigh, ofByte_rexByte, hwide]
    · simpa [Decoder.fits, hw, hasSize, rex?, hne, hhigh, ofByte_rexByte,
        or_iff_not_imp_left] using hwide

/-- The width that is written is that of the instruction, or four bytes for one that has no
choice. -/
def Instruction.WrittenAt (mode : Mode) (i : Instruction) (w : Width) : Prop :=
  i.width? mode = some w ∨ i.width? mode = none ∧ w = .dword

theorem Instruction.WrittenAt.iff {w w' : Width} (h : i.WrittenAt mode w) (hw' : w' ≠ .dword) :
    i.width? mode = some w' ↔ w = w' := by
  rcases h with h | ⟨h, rfl⟩
  · simp [h]
  · simp [h, hw'.symm]

theorem Form.opens {b : UInt8} {more : Bytes} (hmode : mode = .bits32 ∨ mode = .bits64)
    (hs : f.shape mode = .ok s) (hop : f.opcode = b :: more) (hb : IsOpcode b)
    (hw : i.WrittenAt mode f.width)
    (hr : f.width = .byte → i.registers ⊆ f.registers) : Opens mode i s.head := by
  obtain ⟨hfault, s', -, rfl⟩ := f.shape_cases hs
  have hhead : f.head ++ s'.head = (if i.width? mode = some .word then [0x66] else []) ++
      (if f.rexBits != 0 || f.forcesRex then [0x40 ||| f.rexBits] else []) ++ b ::
        (more ++ s'.head) := by
    simp [head, hop, hw.iff]
  simp only [hhead]
  refine .intro _ _ hb ?_ fun hbyte hnil r hri => ?_
  · rcases hmode with rfl | rfl
    · obtain ⟨hbits, hforce⟩ := (encodable hfault).noRex rfl
      simp [hbits, hforce]
    · rw [f.rexBits_eq]
      split_ifs
      · exact .inr ⟨rfl, _, rfl, fun hwide => (hw.iff (by decide)).2 (by simpa [rex] using hwide)⟩
      · exact .inl rfl
  · have hfb := (hw.iff (by decide)).1 hbyte
    have hforce : f.forcesRex = false := by
      by_contra hforce
      simp [hforce] at hnil
    simp only [forcesRex, hfb, decide_true, Bool.true_and, List.any_eq_false] at hforce
    simpa using hforce r (hr hfb hri)

theorem shortShape_opens {w : Width} {opcode : UInt8} {r : Register} {more : Bytes}
    (hmode : mode = .bits32 ∨ mode = .bits64) (hs : shortShape mode w opcode r more = .ok s)
    (hop : IsShort opcode)
    (hw : i.WrittenAt mode w) (hbyte : w ≠ .byte) (hq : w ≠ .qword) : Opens mode i s.head := by
  obtain ⟨hr, rfl⟩ := shortShape_cases hs
  have hrex :
      (if (if w = .qword then (8 : UInt8) else 0) ||| (if r.isExtended then 1 else 0) != 0
        then [0x40 ||| ((if w = .qword then (8 : UInt8) else 0) ||| if r.isExtended then 1 else 0)]
        else []) =
      if r.isExtended then [0x40 ||| rexByte { base := true }] else [] := by
    cases r.isExtended <;> simp [hq, rexByte]
  simp only [hrex, ← hw.iff (show Width.word ≠ .dword by decide)]
  refine .intro _ _ (hop.isOpcode (low_lt r)) ?_ fun h => absurd ((hw.iff (by decide)).1 h) hbyte
  cases hext : r.isExtended with
  | false => exact .inl rfl
  | true =>
    rcases hmode with rfl | rfl
    · rw [isExtended_of_existsIn_bits32 hr] at hext
      cases hext
    · exact .inr ⟨rfl, _, rfl, by simp⟩

theorem opens_bare {b : UInt8} (hb : IsOpcode b) (hw : i.width? mode = none) (more : Bytes) :
    Opens mode i (b :: more) := by
  have h := @Opens.intro mode i [] b more hb (.inl rfl) (by simp [hw])
  simpa [hw] using h

theorem Operand.registers_subset {x : Operand} (hx : f.operand = x) :
    x.registers ⊆ f.registers := by
  cases x <;> simp [registers, Form.registers, hx]

/-- What an instruction is written as begins with the bytes that it needs. -/
theorem Instruction.opens (hmode : mode = .bits32 ∨ mode = .bits64) (hs : i.shape mode = .ok s)
    (hi : i.Regular) : Opens mode i s.head := by
  cases i with
  | mov w dst src =>
    refine Form.opens hmode hs rfl (by cases w <;> decide) (.inl rfl) fun _ => ?_
    cases dst <;> simp [registers, Operand.registers, Form.registers]
  | load w dst src =>
    exact Form.opens hmode hs rfl (by cases w <;> decide) (.inl rfl)
      (by simp [registers, Form.registers])
  | test w a b | inc w a | dec w a | neg w a | div w a | shl w a n | shr w a n =>
    exact Form.opens hmode hs rfl (by cases w <;> decide) (.inl rfl)
      (by simp [registers, Form.registers])
  | alu op w dst src =>
    obtain ⟨n⟩ := op
    obtain ⟨k, rfl⟩ := ofNat_toNat_of_lt hi
    have hop : ∀ k : Fin 8, IsOpcode (UInt8.ofNat k <<< 3) ∧
        IsOpcode (UInt8.ofNat k <<< 3 ||| 1) := by decide
    have hregisters : (alu ⟨UInt8.ofNat k⟩ w dst src).registers ⊆ [src, dst] := by simp [registers]
    cases w with
    | byte => exact Form.opens hmode hs rfl (hop k).1 (.inl rfl) fun _ => hregisters
    | word | dword | qword => exact Form.opens hmode hs rfl (hop k).2 (.inl rfl) fun _ => hregisters
  | movImmediate w dst v =>
    cases dst with
    | memory m =>
      obtain ⟨bs, -, hs⟩ := shapeWith_cases hs
      exact Form.opens hmode hs rfl (by cases w <;> decide) (.inl rfl)
        fun _ => Operand.registers_subset (x := .memory m) rfl
    | register r =>
      simp only [shape] at hs
      split_ifs at hs with hw
      · obtain ⟨bs, -, hs⟩ := shapeWith_cases hs
        exact Form.opens hmode hs rfl (by cases w <;> decide) (.inl rfl)
          fun _ => Operand.registers_subset (x := .register r) rfl
      · obtain ⟨hbyte, hqword⟩ := not_or.1 hw
        split at hs
        · cases hs
        · exact shortShape_opens hmode hs (.inr (.inr rfl)) (.inl rfl) hbyte hqword
  | testImmediate w x v =>
    obtain ⟨bs, -, hs⟩ := shapeWith_cases hs
    exact Form.opens hmode hs rfl (by cases w <;> decide) (.inl rfl) fun _ =>
      Operand.registers_subset rfl
  | aluImmediate op w x v =>
    simp only [shape] at hs
    split_ifs at hs
    · obtain ⟨bs, -, hs⟩ := shapeWith_cases hs
      exact Form.opens hmode hs rfl (by decide) (.inl rfl) fun _ => Operand.registers_subset rfl
    · exact Form.opens hmode hs rfl (by decide) (.inl rfl) fun _ => Operand.registers_subset rfl
    · obtain ⟨bs, -, hs⟩ := shapeWith_cases hs
      exact Form.opens hmode hs rfl (by decide) (.inl rfl) fun _ => Operand.registers_subset rfl
  | imul w a b v =>
    simp only [shape] at hs
    split_ifs at hs
    · exact Form.opens hmode hs rfl (by decide) (.inl rfl) (by simp [registers, Form.registers])
    · obtain ⟨bs, -, hs⟩ := shapeWith_cases hs
      exact Form.opens hmode hs rfl (by decide) (.inl rfl) (by simp [registers, Form.registers])
  | loadZero dst w m | loadSign dst w m | lea dst m =>
    exact Form.opens hmode hs rfl (by decide) (.inl rfl) (by simp [registers])
  | jmpMemory m => exact Form.opens hmode hs rfl (by decide) (.inr ⟨rfl, rfl⟩) (by simp [registers])
  | push r => exact shortShape_opens hmode hs (.inl rfl) (.inr ⟨rfl, rfl⟩) (by decide) (by decide)
  | pop r =>
    exact shortShape_opens hmode hs (.inr (.inl rfl)) (.inr ⟨rfl, rfl⟩) (by decide) (by decide)
  | jccShort c l =>
    cases hs
    exact opens_bare (isOpcode_condition hi) rfl []
  | ret | jmp | jmpShort | jcc | call =>
    cases hs
    exact opens_bare (by decide) rfl _
  | address l => exact hi.elim

theorem Instruction.width?_decoded (i : Instruction) (n : ℤ) :
    (i.decoded mode n).width? mode = i.width? mode := by
  cases i <;> rfl

theorem Instruction.registers_decoded (i : Instruction) (n : ℤ) :
    (i.decoded mode n).registers = i.registers := by
  cases i with
  | mov w x r | movImmediate w x v | aluImmediate op w x v | testImmediate w x v => cases x <;> rfl
  | _ => rfl

/-- Instructions are read back from their bytes, by all of the rules. -/
theorem Instruction.strict?_shape {field : Bytes} (hmode : mode = .bits32 ∨ mode = .bits64)
    (hs : i.shape mode = .ok s) (hi : i.Regular) (hfits : ∀ m ∈ i.memory?, m.Fits)
    (hfield : field.length = s.room) (rest : Bytes) :
    strict? mode (s.fill field ++ rest) = some (i.decoded mode field.signed, rest) := by
  have hopens := (i.opens hmode hs hi).fits (field ++ s.tail ++ rest)
  rw [strict?, i.decode?_shape hmode hs hi hfits hfield, Option.filter_some, if_pos]
  rw [Decoder.fits, width?_decoded, registers_decoded]
  simpa [Decoder.fits, Shape.fill] using hopens

end PortCodec.X86
