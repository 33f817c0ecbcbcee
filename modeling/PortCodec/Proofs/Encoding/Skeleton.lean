import PortCodec.Proofs.Encoding.Operands

/-! What can be encoded. Whether an instruction can be encoded depends on its registers and widths
only: it can be if the same instruction with all numbers set to zero can. -/

namespace PortCodec.X86

variable {mode : Mode} {w : Width} {field : Field}

def Memory.skeleton (m : Memory) : Memory :=
  { m with displacement := 0, label := m.label.map fun _ => 0 }

def Operand.skeleton : Operand → Operand
  | .register r => .register r
  | .memory m => .memory m.skeleton

def Instruction.skeleton : Instruction → Instruction
  | .mov w dst src => .mov w dst.skeleton src
  | .load w dst src => .load w dst src.skeleton
  | .movImmediate w dst _ => .movImmediate w dst.skeleton 0
  | .loadZero dst w src => .loadZero dst w src.skeleton
  | .loadSign dst w src => .loadSign dst w src.skeleton
  | .aluImmediate op w dst _ => .aluImmediate op w dst.skeleton 0
  | .testImmediate w a _ => .testImmediate w a.skeleton 0
  | .shl w r _ => .shl w r 0
  | .shr w r _ => .shr w r 0
  | .imul w dst src _ => .imul w dst src 0
  | .lea dst src => .lea dst src.skeleton
  | .jmp _ => .jmp 0
  | .jmpShort _ => .jmpShort 0
  | .jcc c _ => .jcc c 0
  | .jccShort c _ => .jccShort c 0
  | .call _ => .call 0
  | .jmpMemory m => .jmpMemory m.skeleton
  | .address _ => .address 0
  | i => i

theorem Form.exists_shape_iff (f : Form) : (∃ s, f.shape mode = .ok s) ↔
    f.fault? mode = none ∧ ∃ s, f.operandShape mode = .ok s := by
  refine ⟨fun ⟨s, hs⟩ => ?_, fun ⟨hf, s, hs⟩ => ?_⟩
  · obtain ⟨hf, s', hs', -⟩ := f.shape_cases hs
    exact ⟨hf, s', hs'⟩
  · refine ⟨{ s with head := f.head ++ s.head, tail := f.immediate }, ?_⟩
    simp only [shape, hf, hs, Except.map]

theorem exists_basedOperand {m : Memory} {reg : UInt8} {bs : Bytes}
    (h : basedOperand reg m.skeleton = .ok bs) : ∃ bs, basedOperand reg m = .ok bs := by
  cases hbase : m.base with
  | none => simp [basedOperand, Memory.skeleton, hbase] at h
  | some base =>
    rw [basedOperand_eq reg (m := m.skeleton) hbase] at h
    rw [basedOperand_eq reg hbase]
    cases hindex : m.index with
    | none =>
      simp only
      split_ifs <;> exact ⟨_, rfl⟩
    | some index =>
      simp only [Memory.skeleton, hindex] at h
      cases hscale : scaleBits? m.scale with
      | none => simp [hscale] at h
      | some k => exact ⟨_, rfl⟩

theorem exists_labelOperand {m : Memory} {reg : UInt8} {k n : ℕ} {x : Bytes × Assembly.Patch}
    (h : labelOperand mode reg m.skeleton k = .ok x) : ∃ y, labelOperand mode reg m n = .ok y := by
  have hsame : labelOperand mode reg m.skeleton k = labelOperand mode reg m k := rfl
  rw [hsame] at h
  unfold labelOperand at h ⊢
  split_ifs at h ⊢
  · exact ⟨_, rfl⟩
  · split at h
    · exact ⟨_, rfl⟩
    · split at h
      · cases h
      · exact ⟨_, rfl⟩

/-- Whether a form can be encoded does not depend on its opcode, its displacement and its
immediate. -/
theorem exists_shape_skeleton {x : Operand} {op op' imm imm' : Bytes}
    (h : ∃ s, Form.shape mode ⟨w, op, field, x.skeleton, imm⟩ = .ok s) :
    ∃ s, Form.shape mode ⟨w, op', field, x, imm'⟩ = .ok s := by
  rw [Form.exists_shape_iff] at h ⊢
  obtain ⟨hfault, s, hs⟩ := h
  cases x with
  | register r => exact ⟨hfault, _, rfl⟩
  | memory m =>
    refine ⟨hfault, ?_⟩
    cases hl : m.label with
    | some l =>
      simp only [Form.operandShape, Operand.skeleton, Memory.skeleton, hl, Option.map_some] at hs ⊢
      obtain ⟨x, hx, -⟩ := map_eq_ok.1 hs
      obtain ⟨y, hy⟩ := exists_labelOperand (m := m) (n := imm'.length)
        (by simpa only [Memory.skeleton, hl, Option.map_some] using hx)
      exact ⟨_, by rw [hy]; rfl⟩
    | none =>
      simp only [Form.operandShape, Operand.skeleton, Memory.skeleton, hl, Option.map_none] at hs ⊢
      obtain ⟨x, hx, -⟩ := map_eq_ok.1 hs
      obtain ⟨y, hy⟩ := exists_basedOperand (m := m)
        (by simpa only [Memory.skeleton, hl, Option.map_none] using hx)
      exact ⟨_, by rw [hy]; rfl⟩

def Instruction.immediate? : Instruction → Option (Width × ℤ)
  | .movImmediate w _ v | .aluImmediate _ w _ v | .testImmediate w _ v | .imul w _ _ v =>
    some (w, v)
  | _ => none

/-- The immediate of an instruction can be written in its width, and labelled places have no
distance. -/
def Instruction.isModest (i : Instruction) : Bool :=
  (i.immediate?.all fun (w, v) => (immediate w v).isOk) && i.memory?.all fun m => decide m.IsPlain

theorem isOk_iff {ε α : Type} {x : Except ε α} : x.isOk = true ↔ ∃ a, x = .ok a := by
  cases x <;> simp [Except.isOk, Except.toBool]

theorem Instruction.isPlain_of_isModest {i : Instruction} (h : i.isModest = true) :
    ∀ m ∈ i.memory?, m.IsPlain := by
  intro m hm
  simp only [isModest, Bool.and_eq_true] at h
  simpa [Option.mem_def.1 hm] using h.2

theorem Instruction.immediate_of_isModest {i : Instruction} {w : Width} {v : ℤ}
    (h : i.isModest = true) (hi : i.immediate? = some (w, v)) : ∃ bs, immediate w v = .ok bs := by
  simp only [isModest, Bool.and_eq_true] at h
  simpa [hi, isOk_iff] using h.1

theorem shapeWith_ok {imm : Except OperandFault Bytes} {f : Bytes → Form}
    (himm : ∃ bs, imm = .ok bs) (h : ∀ bs, ∃ s, (f bs).shape mode = .ok s) :
    ∃ s, shapeWith mode imm f = .ok s := by
  obtain ⟨bs, rfl⟩ := himm
  exact h bs

/-- An instruction can be encoded if its skeleton can. -/
theorem Instruction.exists_shape {i : Instruction} (h : ∃ s, i.skeleton.shape mode = .ok s)
    (hi : i.isModest = true) : ∃ s, i.shape mode = .ok s := by
  have hzero (x : Width) : immediate x 0 = .ok (Bytes.littleEndian x.immediate.size 0) := by
    cases x <;> rfl
  cases i with
  | mov w dst src => exact exists_shape_skeleton h
  | load w dst src => exact exists_shape_skeleton (x := .memory src) h
  | loadZero dst w src => exact exists_shape_skeleton (x := .memory src) h
  | loadSign dst w src => exact exists_shape_skeleton (x := .memory src) h
  | lea dst src => exact exists_shape_skeleton (x := .memory src) h
  | jmpMemory m => exact exists_shape_skeleton (x := .memory m) h
  | shl w r n => exact exists_shape_skeleton (x := .register r) h
  | shr w r n => exact exists_shape_skeleton (x := .register r) h
  | testImmediate w a v =>
    simp only [skeleton, shape, hzero, shapeWith] at h
    exact shapeWith_ok (immediate_of_isModest hi rfl) fun _ => exists_shape_skeleton h
  | imul w dst src v =>
    have hform :
        ∃ s, Form.shape mode ⟨w, [0x6b], .register dst, .register src, Emitter.signedByte 0⟩ =
        .ok s := h
    simp only [shape]
    split_ifs
    · exact exists_shape_skeleton (x := .register src) hform
    · exact shapeWith_ok (immediate_of_isModest hi rfl) fun _ =>
        exists_shape_skeleton (x := .register src) hform
  | aluImmediate op w dst v =>
    have hform : ∃ op' imm s, Form.shape mode ⟨w, op', .opcode op.number, dst.skeleton, imm⟩ =
        .ok s := by
      obtain ⟨s, hs⟩ := h
      simp only [skeleton, shape, hzero, shapeWith] at hs
      split_ifs at hs <;> exact ⟨_, _, s, hs⟩
    obtain ⟨op', imm, hform⟩ := hform
    simp only [shape]
    split_ifs
    · exact shapeWith_ok (immediate_of_isModest hi rfl) fun _ => exists_shape_skeleton hform
    · exact exists_shape_skeleton hform
    · exact shapeWith_ok (immediate_of_isModest hi rfl) fun _ => exists_shape_skeleton hform
  | movImmediate w dst v =>
    cases dst with
    | memory m =>
      simp only [skeleton, Operand.skeleton, shape, hzero, shapeWith] at h
      exact shapeWith_ok (immediate_of_isModest hi rfl) fun _ =>
        exists_shape_skeleton (x := .memory m) h
    | register r =>
      obtain ⟨bs, hbs⟩ := immediate_of_isModest hi rfl
      simp only [skeleton, Operand.skeleton, shape, hzero, hbs, shapeWith] at h ⊢
      split_ifs at h ⊢
      · exact exists_shape_skeleton (x := .register r) h
      · unfold shortShape at h ⊢
        split_ifs at h ⊢ <;> first | exact ⟨_, rfl⟩ | (obtain ⟨s, hs⟩ := h; cases hs)
  | jmp | jmpShort | jcc | jccShort | call | address => exact ⟨_, rfl⟩
  | _ => exact h

theorem immediate_byte (b : UInt8) : immediate .byte b.toNat = .ok [b] := by
  have hb := b.toNat_lt
  have hfit : ¬ ((b.toNat : ℤ) < -128 ∨ 255 < (b.toNat : ℤ)) := by omega
  have hmod : ((b.toNat : ℤ) % 2 ^ 32).toNat % 256 = b.toNat := by omega
  simp only [immediate, if_neg hfit, Width.immediate, Width.size, Bytes.littleEndian, hmod,
    UInt8.ofNat_toNat]

end PortCodec.X86
