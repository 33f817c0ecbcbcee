import PortCodec.Proofs.Encoding.Operands

/-! Instructions are read back from their bytes. In place of a label stands the number that its
field holds, and an immediate comes back with the bits that its width keeps. -/

namespace PortCodec.X86

open Decoder

variable {mode : Mode} {f : Form} {s : Shape} {field : Bytes}

def Width.readBack (w : Width) (v : ℤ) : ℤ :=
  match w with
  | .byte => v % 256
  | .word => v.bmod (2 ^ 16)
  | .dword | .qword => v.bmod (2 ^ 32)

/-- What is read back for an instruction whose field holds `n`. -/
def Instruction.decoded (mode : Mode) (n : ℤ) : Instruction → Instruction
  | .mov w dst src => .mov w (dst.decoded mode n) src
  | .load w dst src => .load w dst (src.decoded mode n)
  | .movImmediate w dst v => .movImmediate w (dst.decoded mode n) (w.readBack v)
  | .loadZero dst w src => .loadZero dst w (src.decoded mode n)
  | .loadSign dst w src => .loadSign dst w (src.decoded mode n)
  | .aluImmediate op w dst v =>
    .aluImmediate op w (dst.decoded mode n) (if w ≠ .byte ∧ fitsByte v then v else w.readBack v)
  | .testImmediate w a v => .testImmediate w (a.decoded mode n) (w.readBack v)
  | .imul w dst src v => .imul w dst src (if fitsByte v then v else w.readBack v)
  | .lea dst src => .lea dst (src.decoded mode n)
  | .jmp _ => .jmp n
  | .jmpShort _ => .jmpShort n
  | .jcc c _ => .jcc c n
  | .jccShort c _ => .jccShort c n
  | .call _ => .call n
  | .jmpMemory m => .jmpMemory (m.decoded mode n)
  | i => i

/-- An immediate of eight bytes is written as four, and read back with its sign. -/
def Width.Holds (w : Width) (v : ℤ) : Prop := w = .qword → -2 ^ 31 ≤ v ∧ v < 2 ^ 31

instance (w : Width) (v : ℤ) : Decidable (w.Holds v) := inferInstanceAs (Decidable (_ → _))

/-- Instructions of the machine: those whose numbers and widths its opcodes have room for. -/
def Instruction.Regular : Instruction → Prop
  | .movImmediate w _ v | .testImmediate w _ v => w.Holds v
  | .loadZero _ w _ | .loadSign _ w _ => w = .byte ∨ w = .word
  | .alu op .. => op.number.toNat < 8
  | .aluImmediate op w _ v => op.number.toNat < 8 ∧ w.Holds v
  | .imul w _ _ v => w ≠ .byte ∧ w.Holds v
  | .jcc c _ | .jccShort c _ => c.number.toNat < 16
  | .address _ => False
  | _ => True

theorem immediate?_bytes {w : Width} {v : ℤ} {bs : Bytes} (h : immediate w v = .ok bs)
    (rest : Bytes) : immediate? w (bs ++ rest) = some (w.readBack v, rest) := by
  have hbs : bs = Bytes.littleEndian w.immediate.size (v % 2 ^ 32).toNat := by
    cases w <;> simp only [immediate] at h
    · split_ifs at h; cases h; rfl
    · split_ifs at h; cases h; rfl
    · cases h; rfl
    · cases h; rfl
  subst hbs
  have hsigned (k : ℕ) := signed?_append (Bytes.littleEndian k (v % 2 ^ 32).toNat) rest
  simp only [Bytes.littleEndian_length, Bytes.signed, Bytes.toNatLE_littleEndian] at hsigned
  cases w with
  | byte =>
    simp only [Width.immediate, Width.size, Bytes.littleEndian, List.cons_append, List.nil_append,
      immediate?, Width.readBack, Option.some.injEq, Prod.mk.injEq, and_true, UInt8.toNat_ofNat']
    omega
  | word =>
    refine (hsigned 2).trans ?_
    simp only [Width.readBack, Nat.pow_eq, Int.bmod_def, Option.some.injEq, Prod.mk.injEq, and_true]
    split <;> split <;> omega
  | dword | qword =>
    refine (hsigned 4).trans ?_
    simp only [Width.readBack, Nat.pow_eq, Int.bmod_def, Option.some.injEq, Prod.mk.injEq, and_true]
    split <;> split <;> omega

theorem signed?_signedByte {v : ℤ} (h : fitsByte v = true) (rest : Bytes) :
    signed? 1 (Emitter.signedByte v ++ rest) = some (v, rest) := by
  refine (signed?_append (Emitter.signedByte v) rest).trans ?_
  simp only [fitsByte, Bool.and_eq_true, decide_eq_true_eq] at h
  simp only [Bytes.signed, Emitter.signedByte, Bytes.toNatLE_littleEndian,
    Bytes.littleEndian_length, Nat.pow_eq, Int.bmod_def, Option.some.injEq, Prod.mk.injEq, and_true]
  split <;> omega

/-- A form is read up to its opcode, and its operands from there. -/
theorem Form.decode?_shape {b : UInt8} {more : Bytes} (hmode : mode = .bits32 ∨ mode = .bits64)
    (hs : f.shape mode = .ok s) (hfits : ∀ m ∈ f.operand.memory?, m.Fits)
    (hop : f.opcode = b :: more) (hb : IsOpcode b) (hfield : field.length = s.room) (rest : Bytes) :
    ∃ (x : Rex) (r : Register) (bs : Bytes),
      decode? mode (s.fill field ++ rest) = opcode? mode (f.width = .word) x (b :: (more ++ bs)) ∧
      x.wide = decide (f.width = .qword) ∧ (∀ r', f.field = .register r' → r = r') ∧
      operands? mode x bs =
        some (r, f.field.low, f.operand.decoded mode field.signed, f.immediate ++ rest) := by
  obtain ⟨hfault, s', hs', rfl⟩ := f.shape_cases hs
  have henc := encodable hfault
  refine ⟨f.rex, f.fieldRegister, s'.head ++ (field ++ (f.immediate ++ rest)), ?_, rfl,
    fun r' hr => fieldRegister_eq henc hr,
    operands?_shape hmode henc hfits hs' hfield (f.immediate ++ rest)⟩
  rw [← decode?_head hmode hfault hop hb]
  simp [Shape.fill]

def IsShort (b : UInt8) : Prop := b = 0x50 ∨ b = 0x58 ∨ b = 0xb8

theorem IsShort.isOpcode {b c : UInt8} (hb : IsShort b) (hc : c.toNat < 8) : IsOpcode (b + c) := by
  obtain ⟨i, rfl⟩ := ofNat_toNat_of_lt hc
  rcases hb with rfl | rfl | rfl <;> revert i <;> decide

/-- An opcode that holds its register is read back. -/
theorem decode?_shortShape {w : Width} {opcode : UInt8} {r : Register} {more : Bytes}
    (hmode : mode = .bits32 ∨ mode = .bits64) (hw : w ≠ .qword) (hop : IsShort opcode)
    (hs : shortShape mode w opcode r more = .ok s) (hfield : field.length = s.room) (rest : Bytes) :
    ∃ x : Rex, decode? mode (s.fill field ++ rest) =
        opcode? mode (w = .word) x ((opcode + r.low) :: (more ++ rest)) ∧
      x.wide = false ∧ register x.base r.low = r := by
  obtain ⟨hr, rfl⟩ := shortShape_cases hs
  have hnil : field = [] := List.eq_nil_of_length_eq_zero hfield
  subst hnil
  refine ⟨{ base := r.isExtended }, ?_, rfl, register_low (number_lt_of_existsIn hr)⟩
  rw [← decode?_prefixes (if r.isExtended then [0x40 ||| 1] else []) (hop.isOpcode (low_lt r))]
  · cases w <;> cases hext : r.isExtended <;> simp_all [Shape.fill]
  · cases hext : r.isExtended with
    | false => exact .inl ⟨rfl, rfl⟩
    | true =>
      rcases hmode with rfl | rfl
      · rw [isExtended_of_existsIn_bits32 hr] at hext
        cases hext
      · exact .inr ⟨rfl, rfl⟩

theorem no_memory (r : Register) : ∀ m ∈ (Operand.register r).memory?, m.Fits := by
  simp [Operand.memory?]

/-- Opcodes without prefixes. -/
theorem decode?_bare {b : UInt8} (hb : IsOpcode b) (bs : Bytes) :
    decode? mode (b :: bs) = opcode? mode false {} (b :: bs) :=
  (decode?_cons mode hb.1 bs).trans (decodeRex?_opcode hb false bs)

theorem and_seven {b : UInt8} (h : b.toNat < 8) : b &&& 7 = b := by
  obtain ⟨i, rfl⟩ := ofNat_toNat_of_lt h
  revert i
  decide

section Opcodes

variable {small : Bool} {x : Rex} {c : UInt8}

theorem opcode?_push (hc : c.toNat < 8) (bs : Bytes) :
    opcode? mode small x ((0x50 + c) :: bs) = some (.push (register x.base c), bs) := by
  obtain ⟨k, rfl⟩ := ofNat_toNat_of_lt hc
  fin_cases k <;> rfl

theorem opcode?_pop (hc : c.toNat < 8) (bs : Bytes) :
    opcode? mode small x ((0x58 + c) :: bs) = some (.pop (register x.base c), bs) := by
  obtain ⟨k, rfl⟩ := ofNat_toNat_of_lt hc
  fin_cases k <;> rfl

theorem opcode?_movImmediate (hc : c.toNat < 8) (hx : x.wide = false) (bs : Bytes) :
    opcode? mode small x ((0xb8 + c) :: bs) =
      (immediate? (if small then .word else .dword) bs).map fun (v, bs) =>
        (.movImmediate (if small then .word else .dword)
          (.register (register x.base c)) v, bs) := by
  obtain ⟨k, rfl⟩ := ofNat_toNat_of_lt hc
  obtain ⟨wide, a, b, d⟩ := x
  subst hx
  fin_cases k <;> rfl

theorem opcode?_jcc (hc : c.toNat < 16) (bs : Bytes) :
    opcode? mode small x (0x0f :: (0x80 ||| c) :: bs) =
      (signed? 4 bs).map fun (d, bs) => (.jcc ⟨c⟩ d, bs) := by
  obtain ⟨k, rfl⟩ := ofNat_toNat_of_lt hc
  cases h : signed? 4 bs <;> fin_cases k <;> simp +decide [opcode?, extended?, h]

theorem opcode?_jccShort (hc : c.toNat < 16) (bs : Bytes) :
    opcode? mode small x ((0x70 ||| c) :: bs) =
      (signed? 1 bs).map fun (d, bs) => (.jccShort ⟨c⟩ d, bs) := by
  obtain ⟨k, rfl⟩ := ofNat_toNat_of_lt hc
  fin_cases k <;> rfl

theorem isOpcode_condition (hc : c.toNat < 16) : IsOpcode (0x70 ||| c) := by
  obtain ⟨k, rfl⟩ := ofNat_toNat_of_lt hc
  revert k
  decide

/-- The number in a field of known room. -/
theorem signed?_field {k : ℕ} (h : field.length = k) (rest : Bytes) :
    signed? k (field ++ rest) = some (field.signed, rest) :=
  h ▸ signed?_append field rest

end Opcodes

section Immediates

variable {w : Width} {v : ℤ} {dst : Operand}

theorem decode?_imul {a c : Register} (hmode : mode = .bits32 ∨ mode = .bits64)
    (hs : (Instruction.imul w a c v).shape mode = .ok s) (hi : (Instruction.imul w a c v).Regular)
    (hfield : field.length = s.room) (rest : Bytes) :
    decode? mode (s.fill field ++ rest) =
      some ((Instruction.imul w a c v).decoded mode field.signed, rest) := by
  have hw : w ≠ .byte := hi.1
  simp only [Instruction.shape] at hs
  split_ifs at hs with hfit
  · cases w
    · exact absurd rfl hw
    all_goals
      obtain ⟨x, r, bs, hdec, hx, hr, hops⟩ :=
        Form.decode?_shape hmode hs (no_memory c) rfl (by decide) hfield rest
      obtain rfl := hr a rfl
      simp +decide [hdec, opcode?, pair?, hx, hops, Instruction.decoded, Operand.decoded, hfit,
        signed?_signedByte hfit]
  · obtain ⟨imm, himm, hs⟩ := shapeWith_cases hs
    have hread := immediate?_bytes himm rest
    cases w
    · exact absurd rfl hw
    all_goals
      obtain ⟨x, r, bs, hdec, hx, hr, hops⟩ :=
        Form.decode?_shape hmode hs (no_memory c) rfl (by decide) hfield rest
      obtain rfl := hr a rfl
      simp +decide [hdec, opcode?, pair?, hx, hops, Instruction.decoded,
        Operand.decoded, hfit, hread]

theorem decode?_testImmediate (hmode : mode = .bits32 ∨ mode = .bits64)
    (hs : (Instruction.testImmediate w dst v).shape mode = .ok s)
    (hfits : ∀ m ∈ dst.memory?, m.Fits) (hfield : field.length = s.room) (rest : Bytes) :
    decode? mode (s.fill field ++ rest) =
      some ((Instruction.testImmediate w dst v).decoded mode field.signed, rest) := by
  rw [Instruction.shape] at hs
  obtain ⟨imm, himm, hs⟩ := shapeWith_cases hs
  have hread := immediate?_bytes himm rest
  cases w
  all_goals
    obtain ⟨x, r, bs, hdec, hx, hr, hops⟩ :=
      Form.decode?_shape hmode hs hfits rfl (by decide) hfield rest
    simp +decide [hdec, opcode?, group?, hx, hops, Instruction.decoded, Field.low, hread]

theorem decode?_aluImmediate {op : Alu} (hmode : mode = .bits32 ∨ mode = .bits64)
    (hs : (Instruction.aluImmediate op w dst v).shape mode = .ok s)
    (hi : (Instruction.aluImmediate op w dst v).Regular) (hfits : ∀ m ∈ dst.memory?, m.Fits)
    (hfield : field.length = s.room) (rest : Bytes) :
    decode? mode (s.fill field ++ rest) =
      some ((Instruction.aluImmediate op w dst v).decoded mode field.signed, rest) := by
  have hop : op.number &&& 7 = op.number := and_seven hi.1
  simp only [Instruction.shape] at hs
  split_ifs at hs with hw hfit
  · obtain ⟨imm, himm, hs⟩ := shapeWith_cases hs
    have hread := immediate?_bytes himm rest
    obtain ⟨x, r, bs, hdec, hx, hr, hops⟩ :=
      Form.decode?_shape hmode hs hfits rfl (by decide) hfield rest
    subst hw
    simp +decide [hdec, opcode?, group?, hx, hops, Instruction.decoded, Field.low, hop, hread]
  · cases w
    · exact absurd rfl hw
    all_goals
      obtain ⟨x, r, bs, hdec, hx, hr, hops⟩ :=
        Form.decode?_shape hmode hs hfits rfl (by decide) hfield rest
      simp +decide [hdec, opcode?, group?, hx, hops, Instruction.decoded, Field.low, hop, hfit,
        signed?_signedByte hfit]
  · obtain ⟨imm, himm, hs⟩ := shapeWith_cases hs
    have hread := immediate?_bytes himm rest
    cases w
    · exact absurd rfl hw
    all_goals
      obtain ⟨x, r, bs, hdec, hx, hr, hops⟩ :=
        Form.decode?_shape hmode hs hfits rfl (by decide) hfield rest
      simp +decide [hdec, opcode?, group?, hx, hops, Instruction.decoded, Field.low,
        hop, hfit, hread]

/-- A register gets its number through an operand, or through the opcode where that is shorter. -/
theorem decode?_movImmediate (hmode : mode = .bits32 ∨ mode = .bits64)
    (hs : (Instruction.movImmediate w dst v).shape mode = .ok s)
    (hfits : ∀ m ∈ dst.memory?, m.Fits) (hfield : field.length = s.room) (rest : Bytes) :
    decode? mode (s.fill field ++ rest) =
      some ((Instruction.movImmediate w dst v).decoded mode field.signed, rest) := by
  cases himm : immediate w v with
  | error fault =>
    cases dst <;> simp only [Instruction.shape, himm, shapeWith] at hs <;> try split_ifs at hs
    all_goals cases hs
  | ok imm =>
    have hread := immediate?_bytes himm rest
    cases dst with
    | memory m =>
      rw [Instruction.shape, himm, shapeWith] at hs
      cases w
      all_goals
        obtain ⟨x, r, bs, hdec, hx, hr, hops⟩ :=
          Form.decode?_shape hmode hs hfits rfl (by decide) hfield rest
        simp +decide [hdec, opcode?, group?, hx, hops, Instruction.decoded, Field.low, hread]
    | register a =>
      simp only [Instruction.shape, himm, shapeWith] at hs
      split_ifs at hs with hw
      · rcases hw with rfl | rfl
        all_goals
          obtain ⟨x, r, bs, hdec, hx, hr, hops⟩ :=
            Form.decode?_shape hmode hs hfits rfl (by decide) hfield rest
          simp +decide [hdec, opcode?, group?, hx, hops, Instruction.decoded, Field.low, hread]
      · obtain ⟨hbyte, hqword⟩ := not_or.1 hw
        obtain ⟨x, hdec, hx, hr⟩ :=
          decode?_shortShape hmode hqword (.inr (.inr rfl)) hs hfield rest
        rw [hdec, opcode?_movImmediate (low_lt a) hx, hr]
        cases w
        · exact absurd rfl hbyte
        · simp [hread, Instruction.decoded, Operand.decoded]
        · simp [hread, Instruction.decoded, Operand.decoded]
        · exact absurd rfl hqword

end Immediates

/-- Instructions are read back from their bytes. -/
theorem Instruction.decode?_shape {i : Instruction} (hmode : mode = .bits32 ∨ mode = .bits64)
    (hs : i.shape mode = .ok s) (hi : i.Regular) (hfits : ∀ m ∈ i.memory?, m.Fits)
    (hfield : field.length = s.room) (rest : Bytes) :
    decode? mode (s.fill field ++ rest) = some (i.decoded mode field.signed, rest) := by
  cases i with
  | mov w dst src =>
    cases w
    all_goals
      obtain ⟨x, r, bs, hdec, hx, hr, hops⟩ :=
        Form.decode?_shape hmode hs hfits rfl (by decide) hfield rest
      obtain rfl := hr src rfl
      simp +decide [hdec, opcode?, pair?, hx, hops, decoded]
  | load w dst src =>
    cases w
    all_goals
      obtain ⟨x, r, bs, hdec, hx, hr, hops⟩ :=
        Form.decode?_shape hmode hs hfits rfl (by decide) hfield rest
      obtain rfl := hr dst rfl
      simp +decide [hdec, opcode?, pair?, hx, hops, decoded, Operand.decoded]
  | lea dst src =>
    rcases hmode with rfl | rfl
    all_goals
      obtain ⟨x, r, bs, hdec, hx, hr, hops⟩ :=
        Form.decode?_shape (by decide) hs hfits rfl (by decide) hfield rest
      obtain rfl := hr dst rfl
      simp +decide [hdec, opcode?, pair?, hx, hops, decoded, Operand.decoded, Mode.pointer]
  | loadZero dst w src | loadSign dst w src =>
    rcases hi with rfl | rfl
    all_goals
      obtain ⟨x, r, bs, hdec, hx, hr, hops⟩ :=
        Form.decode?_shape hmode hs hfits rfl (by decide) hfield rest
      obtain rfl := hr dst rfl
      simp +decide [hdec, opcode?, extended?, hops, decoded, Operand.decoded]
  | test w a c =>
    cases w
    all_goals
      obtain ⟨x, r, bs, hdec, hx, hr, hops⟩ :=
        Form.decode?_shape hmode hs (no_memory a) rfl (by decide) hfield rest
      obtain rfl := hr c rfl
      simp +decide [hdec, opcode?, pair?, hx, hops, decoded, Operand.decoded]
  | alu op w dst src =>
    obtain ⟨n⟩ := op
    obtain ⟨k, rfl⟩ := ofNat_toNat_of_lt hi
    cases w <;> fin_cases k
    all_goals
      obtain ⟨x, r, bs, hdec, hx, hr, hops⟩ :=
        Form.decode?_shape hmode hs (no_memory dst) rfl (by decide) hfield rest
      obtain rfl := hr src rfl
      simp +decide [hdec, opcode?, pair?, hx, hops, decoded, Operand.decoded]
  | imul w a c v => exact decode?_imul hmode hs hi hfield rest
  | inc w a | dec w a | neg w a | div w a | shl w a n | shr w a n =>
    cases w
    all_goals
      obtain ⟨x, r, bs, hdec, hx, hr, hops⟩ :=
        Form.decode?_shape hmode hs (no_memory a) rfl (by decide) hfield rest
      simp +decide [hdec, opcode?, group?, hx, hops, decoded, Operand.decoded, Field.low]
  | jmpMemory m =>
    obtain ⟨x, r, bs, hdec, hx, hr, hops⟩ :=
      Form.decode?_shape hmode hs hfits rfl (by decide) hfield rest
    simp +decide [hdec, opcode?, group?, hops, decoded, Operand.decoded, Field.low]
  | testImmediate w a v => exact decode?_testImmediate hmode hs hfits hfield rest
  | aluImmediate op w dst v => exact decode?_aluImmediate hmode hs hi hfits hfield rest
  | movImmediate w dst v => exact decode?_movImmediate hmode hs hfits hfield rest
  | push a =>
    obtain ⟨x, hdec, hx, hr⟩ :=
      decode?_shortShape hmode (by decide) (.inl rfl) hs hfield rest
    rw [hdec, opcode?_push (low_lt a), hr]
    rfl
  | pop a =>
    obtain ⟨x, hdec, hx, hr⟩ :=
      decode?_shortShape hmode (by decide) (.inr (.inl rfl)) hs hfield rest
    rw [hdec, opcode?_pop (low_lt a), hr]
    rfl
  | ret =>
    cases hs
    have hnil : field = [] := List.eq_nil_of_length_eq_zero hfield
    subst hnil
    exact decode?_bare (by decide) rest
  | jmp l | call l =>
    cases hs
    refine (decode?_bare (by decide) _).trans ?_
    simp +decide [opcode?, signed?_field (k := 4) hfield, decoded]
  | jmpShort l =>
    cases hs
    refine (decode?_bare (by decide) _).trans ?_
    simp +decide [opcode?, signed?_field (k := 1) hfield, decoded]
  | jcc c l =>
    cases hs
    refine (decode?_bare (by decide) _).trans ((opcode?_jcc hi _).trans ?_)
    simp [signed?_field (k := 4) hfield, decoded]
  | jccShort c l =>
    cases hs
    refine (decode?_bare (isOpcode_condition hi) _).trans ((opcode?_jccShort hi _).trans ?_)
    simp [signed?_field (k := 1) hfield, decoded]
  | address l => exact hi.elim

end PortCodec.X86
