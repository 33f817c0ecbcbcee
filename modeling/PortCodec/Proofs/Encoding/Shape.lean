import Mathlib.Tactic
import PortCodec.Proofs.Outcome
import PortCodec.X86.Emitter

/-! What an instruction is written as: bytes around at most one field that the linker fills in. The
emitter appends exactly that, so an encoding can be spoken of without the code around it. -/

namespace PortCodec.X86

open Assembly (Patch Relocation Misuse)

/-- The bytes of an instruction before and behind the field that is filled in later. -/
structure Shape where
  head : Bytes
  field : Option (Patch × ℤ) := none
  tail : Bytes := []

namespace Shape

def room (s : Shape) : ℕ := s.field.elim 0 fun f => f.1.width

def size (s : Shape) : ℕ := s.head.length + s.room + s.tail.length

def fill (s : Shape) (field : Bytes) : Bytes := s.head ++ field ++ s.tail

def raw (s : Shape) : Bytes := s.fill (List.replicate s.room 0)

/-- What the linker has to do for a shape at a place of the code. -/
def relocations (s : Shape) (o : ℕ) : List Relocation :=
  (s.field.map fun (patch, l) =>
    { patch, target := l, offset := o + s.head.length, size := patch.width }).toList

theorem length_fill (s : Shape) {field : Bytes} (h : field.length = s.room) :
    (s.fill field).length = s.size := by
  simp only [fill, size, List.length_append, h]

theorem length_raw (s : Shape) : s.raw.length = s.size := s.length_fill (by simp)

end Shape

def Form.operandShape (mode : Mode) (f : Form) : Except OperandFault Shape :=
  match f.operand with
  | .register r => .ok { head := [modRM 3 f.field.low r.low] }
  | .memory m =>
    match m.label with
    | some l => (labelOperand mode f.field.low m f.immediate.length).map fun (bs, patch) =>
        { head := bs, field := some (patch, l) }
    | none => (basedOperand f.field.low m).map fun bs => { head := bs }

def Form.shape (mode : Mode) (f : Form) : Except OperandFault Shape :=
  match f.fault? mode with
  | some fault => .error fault
  | none => (f.operandShape mode).map fun s =>
    { s with head := f.head ++ s.head, tail := f.immediate }

/-- The three kinds of operand bytes. -/
theorem Form.operandShape_cases {mode : Mode} {f : Form} {s : Shape}
    (h : f.operandShape mode = .ok s) :
    (∃ r, f.operand = .register r ∧ s = { head := [modRM 3 f.field.low r.low] }) ∨
    (∃ m l bs patch, f.operand = .memory m ∧ m.label = some l ∧
      labelOperand mode f.field.low m f.immediate.length = .ok (bs, patch) ∧
      s = { head := bs, field := some (patch, l) }) ∨
    (∃ m bs, f.operand = .memory m ∧ m.label = none ∧ basedOperand f.field.low m = .ok bs ∧
      s = { head := bs }) := by
  unfold operandShape at h
  cases hop : f.operand with
  | register r =>
    simp only [hop] at h
    cases h
    exact .inl ⟨r, rfl, rfl⟩
  | memory m =>
    cases hl : m.label with
    | some l =>
      simp only [hop, hl] at h
      obtain ⟨⟨bs, patch⟩, hbs, rfl⟩ := map_eq_ok.1 h
      exact .inr (.inl ⟨m, l, bs, patch, rfl, hl, hbs, rfl⟩)
    | none =>
      simp only [hop, hl] at h
      obtain ⟨bs, hbs, rfl⟩ := map_eq_ok.1 h
      exact .inr (.inr ⟨m, bs, rfl, hl, hbs, rfl⟩)

theorem Form.shape_cases {mode : Mode} {f : Form} {s : Shape} (h : f.shape mode = .ok s) :
    f.fault? mode = none ∧ ∃ s', f.operandShape mode = .ok s' ∧
      s = { s' with head := f.head ++ s'.head, tail := f.immediate } := by
  unfold shape at h
  cases hfault : f.fault? mode with
  | some fault =>
    simp only [hfault] at h
    cases h
  | none =>
    simp only [hfault] at h
    obtain ⟨s', hs', rfl⟩ := map_eq_ok.1 h
    exact ⟨rfl, s', hs', rfl⟩

def shapeWith (mode : Mode) (imm : Except OperandFault Bytes) (f : Bytes → Form) :
    Except OperandFault Shape :=
  match imm with
  | .error fault => .error fault
  | .ok bs => (f bs).shape mode

theorem shapeWith_cases {mode : Mode} {s : Shape} {imm : Except OperandFault Bytes}
    {f : Bytes → Form}
    (h : shapeWith mode imm f = .ok s) : ∃ bs, imm = .ok bs ∧ (f bs).shape mode = .ok s := by
  cases imm with
  | error fault => cases h
  | ok bs => exact ⟨bs, rfl, h⟩

def shortShape (mode : Mode) (w : Width) (opcode : UInt8) (r : Register) (more : Bytes) :
    Except OperandFault Shape :=
  if r.existsIn mode then
    let rex := (if w = .qword then 8 else 0) ||| (if r.isExtended then 1 else 0)
    .ok { head := (if w = .word then [0x66] else []) ++ (if rex != 0 then [0x40 ||| rex] else []) ++
            (opcode + r.low) :: more }
  else .error (.noRegister r mode)

theorem shortShape_cases {mode : Mode} {s : Shape} {w : Width} {opcode : UInt8} {r : Register}
    {more : Bytes} (h : shortShape mode w opcode r more = .ok s) :
    r.existsIn mode = true ∧ s = { head := (if w = .word then [0x66] else []) ++
      (if (if w = .qword then (8 : UInt8) else 0) ||| (if r.isExtended then 1 else 0) != 0 then
        [0x40 ||| ((if w = .qword then 8 else 0) ||| (if r.isExtended then 1 else 0))] else []) ++
      (opcode + r.low) :: more } := by
  unfold shortShape at h
  by_cases hr : r.existsIn mode
  · rw [if_pos hr] at h
    cases h
    exact ⟨hr, rfl⟩
  · rw [if_neg hr] at h
    cases h

def Instruction.shape (mode : Mode) : Instruction → Except OperandFault Shape
  | .mov w dst src => Form.shape mode ⟨w, Emitter.pick w 0x88 0x89, .register src, dst, []⟩
  | .load w dst src => Form.shape mode ⟨w, Emitter.pick w 0x8a 0x8b, .register dst, .memory src, []⟩
  | .movImmediate w (.memory m) v => shapeWith mode (immediate w v) fun bs =>
      ⟨w, Emitter.pick w 0xc6 0xc7, .opcode 0, .memory m, bs⟩
  | .movImmediate w (.register r) v =>
    if w = .byte ∨ w = .qword then
      shapeWith mode (immediate w v) fun bs =>
        ⟨w, Emitter.pick w 0xc6 0xc7, .opcode 0, .register r, bs⟩
    else match immediate w v with
      | .error fault => .error fault
      | .ok bs => shortShape mode w 0xb8 r bs
  | .loadZero dst w src => Form.shape mode
      ⟨.dword, [0x0f, if w = .word then 0xb7 else 0xb6], .register dst, .memory src, []⟩
  | .loadSign dst w src => Form.shape mode
      ⟨.dword, [0x0f, if w = .word then 0xbf else 0xbe], .register dst, .memory src, []⟩
  | .alu op w dst src => Form.shape mode ⟨w,
      Emitter.pick w (op.number <<< 3) (op.number <<< 3 ||| 1), .register src, .register dst, []⟩
  | .aluImmediate op w dst v =>
    if w = .byte then shapeWith mode (immediate w v) fun bs =>
      ⟨w, [0x80], .opcode op.number, dst, bs⟩
    else if fitsByte v then
      Form.shape mode ⟨w, [0x83], .opcode op.number, dst, Emitter.signedByte v⟩
    else shapeWith mode (immediate w v) fun bs => ⟨w, [0x81], .opcode op.number, dst, bs⟩
  | .test w a b => Form.shape mode ⟨w, Emitter.pick w 0x84 0x85, .register b, .register a, []⟩
  | .testImmediate w a v => shapeWith mode (immediate w v) fun bs =>
      ⟨w, Emitter.pick w 0xf6 0xf7, .opcode 0, a, bs⟩
  | .inc w r => Form.shape mode ⟨w, Emitter.pick w 0xfe 0xff, .opcode 0, .register r, []⟩
  | .dec w r => Form.shape mode ⟨w, Emitter.pick w 0xfe 0xff, .opcode 1, .register r, []⟩
  | .neg w r => Form.shape mode ⟨w, Emitter.pick w 0xf6 0xf7, .opcode 3, .register r, []⟩
  | .div w r => Form.shape mode ⟨w, Emitter.pick w 0xf6 0xf7, .opcode 6, .register r, []⟩
  | .shl w r n => Form.shape mode ⟨w, Emitter.pick w 0xc0 0xc1, .opcode 4, .register r, [n]⟩
  | .shr w r n => Form.shape mode ⟨w, Emitter.pick w 0xc0 0xc1, .opcode 5, .register r, [n]⟩
  | .imul w dst src v =>
    if fitsByte v then
      Form.shape mode ⟨w, [0x6b], .register dst, .register src, Emitter.signedByte v⟩
    else shapeWith mode (immediate w v) fun bs => ⟨w, [0x69], .register dst, .register src, bs⟩
  | .lea dst src => Form.shape mode ⟨mode.pointer, [0x8d], .register dst, .memory src, []⟩
  | .push r => shortShape mode .dword 0x50 r []
  | .pop r => shortShape mode .dword 0x58 r []
  | .ret => .ok { head := [0xc3] }
  | .jmp l => .ok { head := [0xe9], field := some (.rel32 0, l) }
  | .jmpShort l => .ok { head := [0xeb], field := some (.rel8, l) }
  | .jcc c l => .ok { head := [0x0f, 0x80 ||| c.number], field := some (.rel32 0, l) }
  | .jccShort c l => .ok { head := [0x70 ||| c.number], field := some (.rel8, l) }
  | .call l => .ok { head := [0xe8], field := some (.rel32 0, l) }
  | .jmpMemory m => Form.shape mode ⟨.dword, [0xff], .opcode 4, .memory m, []⟩
  | .address l => .ok
      { head := [], field := some (if mode = .bits64 then .abs64 else .abs32, l) }

def Operand.memory? : Operand → Option Memory
  | .memory m => some m
  | .register _ => none

def Instruction.memory? : Instruction → Option Memory
  | .mov _ x _ | .movImmediate _ x _ | .aluImmediate _ _ x _ | .testImmediate _ x _ => x.memory?
  | .load _ _ m | .loadZero _ _ m | .loadSign _ _ m | .lea _ m | .jmpMemory m => some m
  | _ => none

/-- A labelled place without a distance needs no label of its own. -/
def Memory.IsPlain (m : Memory) : Prop := m.label.isSome → m.displacement = 0

instance (m : Memory) : Decidable m.IsPlain := inferInstanceAs (Decidable (_ → _))

namespace Emitter

variable {e : Emitter} {s : Shape}

def put (e : Emitter) (s : Shape) : Emitter :=
  { e with assembler :=
      { e.assembler with
        code := e.assembler.code ++ s.raw
        relocations := e.assembler.relocations ++ (s.relocations e.assembler.size).toArray } }

theorem append_append (code : Array UInt8) (xs ys : Bytes) :
    code ++ xs ++ ys = code ++ (xs ++ ys) := by
  apply Array.toList_inj.1
  simp

theorem size_append_bytes (code : Array UInt8) (xs : Bytes) :
    (code ++ xs).size = code.size + xs.length := by
  rw [← Array.length_toList, Array.toList_appendList, List.length_append, Array.length_toList]

theorem bytes_eq_put (e : Emitter) (bs : Bytes) : e.bytes bs = e.put { head := bs } := by
  simp [bytes, put, Assembler.bytes, Shape.raw, Shape.fill, Shape.room, Shape.relocations]

/-- A shape written in two goes. -/
theorem bytes_put (e : Emitter) (bs : Bytes) (s : Shape) :
    (e.bytes bs).put s = e.put { s with head := bs ++ s.head } := by
  simp [bytes, put, Assembler.bytes, Shape.raw, Shape.fill, Shape.room, Shape.relocations,
    Assembler.size, append_append, size_append_bytes, Nat.add_assoc]

theorem put_bytes (e : Emitter) (s : Shape) (bs : Bytes) :
    (e.put s).bytes bs = e.put { s with tail := s.tail ++ bs } := by
  simp [bytes, put, Assembler.bytes, Shape.raw, Shape.fill, Shape.room, Shape.relocations,
    append_append]

theorem bytes_bytes (e : Emitter) (xs ys : Bytes) :
    (e.bytes xs).bytes ys = e.bytes (xs ++ ys) := by
  simp [bytes, Assembler.bytes, append_append]

theorem relocate_eq_put (e : Emitter) (patch : Patch) (l : ℤ) :
    e.relocate patch.width patch l = e.put { head := [], field := some (patch, l) } := by
  simp [relocate, put, Assembler.relocate, Assembler.pad, Assembler.bytes, Shape.raw, Shape.fill,
    Shape.room, Shape.relocations]

/-- A field behind an opcode. -/
theorem bytes_relocate (e : Emitter) (bs : Bytes) (patch : Patch) (l : ℤ) :
    (e.bytes bs).relocate patch.width patch l =
      e.put { head := bs, field := some (patch, l) } := by
  rw [relocate_eq_put, bytes_put, List.append_nil]

theorem labelOperand_width {mode : Mode} {reg : UInt8} {m : Memory} {n : ℕ} {bs : Bytes}
    {patch : Patch} (h : labelOperand mode reg m n = .ok (bs, patch)) : patch.width = 4 := by
  unfold labelOperand at h
  split_ifs at h
  · cases h; rfl
  · split at h
    · cases h; rfl
    · split at h <;> cases h; rfl

section Paths

/-! Each path of an emitter that has met no fault. -/

variable (he : e.error = none)
include he

theorem form_eq (f : Form) (hf : f.shape e.mode = .ok s)
    (hp : ∀ m ∈ f.operand.memory?, m.IsPlain) : e.form f = (e.put s, none) := by
  obtain ⟨hfault, s', hs', rfl⟩ := f.shape_cases hf
  unfold form
  simp only [he, Option.isSome_none, Bool.false_eq_true, ↓reduceIte, hfault]
  rcases f.operandShape_cases hs' with ⟨r, hop, rfl⟩ | ⟨m, l, bs, patch, hop, hl, hbs, rfl⟩ |
    ⟨m, bs, hop, hl, hbs, rfl⟩
  · simp only [hop]
    rw [bytes_bytes e, bytes_eq_put e, put_bytes]
    rfl
  · have h0 : m.displacement = 0 := hp m (by simp [hop, Operand.memory?]) (by simp [hl])
    have hmode : (e.bytes f.head).mode = e.mode := rfl
    simp only [hop, memory, hl, labelMemory, h0, ↓reduceIte, hmode, hbs]
    rw [← labelOperand_width hbs]
    change (((e.bytes f.head).bytes bs).relocate patch.width patch l |>.bytes _, _) = _
    rw [bytes_bytes, bytes_relocate, put_bytes]
    rfl
  · simp only [hop, memory, hl, hbs]
    rw [bytes_bytes e, bytes_eq_put e, put_bytes]
    rfl

theorem formWith_eq {w : Width} {v : ℤ} {f : Bytes → Form}
    (hf : shapeWith e.mode (immediate w v) f = .ok s)
    (hp : ∀ bs, ∀ m ∈ (f bs).operand.memory?, m.IsPlain) : e.formWith w v f = (e.put s, none) := by
  obtain ⟨bs, himm, hs⟩ := shapeWith_cases hf
  simp only [formWith, immediateBytes, himm]
  exact form_eq he (f bs) hs (hp bs)

theorem shortForm_eq {w : Width} {opcode : UInt8} {r : Register}
    (hf : shortShape e.mode w opcode r [] = .ok s) : e.shortForm w opcode r = e.put s := by
  obtain ⟨hr, rfl⟩ := shortShape_cases hf
  simp only [shortForm, he, Option.isSome_none, Bool.false_eq_true, ↓reduceIte, hr]
  exact bytes_eq_put e _

theorem shortFormWith_eq {w : Width} {opcode : UInt8} {r : Register} {v : ℤ} {bs : Bytes}
    (himm : immediate w v = .ok bs) (hf : shortShape e.mode w opcode r bs = .ok s) :
    e.shortFormWith w opcode r v = e.put s := by
  obtain ⟨hr, rfl⟩ := shortShape_cases hf
  simp only [shortFormWith, immediateBytes, himm, shortForm_eq he (if_pos hr)]
  rw [if_pos (by simp [put, he]), ← bytes_eq_put, bytes_bytes, bytes_eq_put]
  simp only [List.append_assoc, List.cons_append, List.nil_append]

theorem ret_eq : e.ret = e.put { head := [0xc3] } := by
  rw [ret, if_pos (by simp [he]), bytes_eq_put]

theorem jump_eq (opcode : Bytes) (patch : Patch) (l : ℤ) :
    e.jump opcode patch.width patch l = e.put { head := opcode, field := some (patch, l) } := by
  rw [jump, if_pos (by simp [he]), bytes_relocate]

theorem address_eq (l : ℤ) : e.address l =
    e.put { head := [], field := some (if e.mode = .bits64 then .abs64 else .abs32, l) } := by
  rw [address, if_neg (by simp [he])]
  split_ifs
  · exact relocate_eq_put e .abs64 l
  · exact relocate_eq_put e .abs32 l

end Paths

/-- The emitter appends the shape of an instruction. -/
theorem emit_eq {i : Instruction} (he : e.error = none) (hs : i.shape e.mode = .ok s)
    (hp : ∀ m ∈ i.memory?, m.IsPlain) : e.emit i = (e.put s, none) := by
  have hno (r : Register) : ∀ m ∈ (Operand.register r).memory?, m.IsPlain := by
    simp [Operand.memory?]
  cases i with
  | movImmediate w dst v =>
    cases dst with
    | memory m => exact formWith_eq he hs fun _ => hp
    | register r =>
      simp only [Instruction.shape] at hs
      simp only [emit]
      split_ifs at hs ⊢
      · exact formWith_eq he hs fun _ => hno r
      · cases himm : immediate w v with
        | error fault => simp [himm] at hs
        | ok bs =>
          simp only [himm] at hs
          rw [shortFormWith_eq he himm hs]
  | aluImmediate op w dst v =>
    simp only [Instruction.shape] at hs
    simp only [emit]
    split_ifs at hs ⊢
    · exact formWith_eq he hs fun _ => hp
    · exact form_eq he _ hs hp
    · exact formWith_eq he hs fun _ => hp
  | imul w dst src v =>
    simp only [Instruction.shape] at hs
    simp only [emit]
    split_ifs at hs ⊢
    · exact form_eq he _ hs (hno src)
    · exact formWith_eq he hs fun _ => hno src
  | testImmediate w a v => exact formWith_eq he hs fun _ => hp
  | mov | load | loadZero | loadSign | lea | jmpMemory => exact form_eq he _ hs hp
  | alu op w dst src => exact form_eq he _ hs (hno dst)
  | test w a b => exact form_eq he _ hs (hno a)
  | inc w r | dec w r | neg w r | div w r | shl w r n | shr w r n =>
    exact form_eq he _ hs (hno r)
  | push r | pop r => rw [emit, shortForm_eq he hs]
  | ret =>
    cases hs
    rw [emit, ret_eq he]
  | jmp l | jmpShort l | jcc c l | jccShort c l | call l =>
    cases hs
    exact congrArg (·, none) (jump_eq he _ _ l)
  | address l =>
    cases hs
    rw [emit, address_eq he]

end Emitter
end PortCodec.X86
