import PortCodec.Proofs.Encoding.Shape

/-! What the emitter has done when it reports no fault: it has appended the shape of the
instruction. A place at a distance from a label gets a label of its own before. An earlier fault
stops each path at its own guard. -/

namespace PortCodec.X86

open Assembly (Misuse Patch)

def Shape.aimedAt (s : Shape) (l : ℤ) : Shape := { s with field := s.field.map fun x => (x.1, l) }

theorem Shape.room_aimedAt (s : Shape) (l : ℤ) : (s.aimedAt l).room = s.room := by
  unfold room aimedAt
  cases s.field <;> rfl

theorem Shape.size_aimedAt (s : Shape) (l : ℤ) : (s.aimedAt l).size = s.size := by
  rw [size, size, room_aimedAt]
  rfl

namespace Emitter

variable {e e' : Emitter} {f : Form} {s : Shape} {i : Instruction}

section Faulted

variable {fault : OperandFault} (h : e.error = some fault)
include h

theorem fail_of_fault (later : OperandFault) : e.fail later = e := by
  rw [fail, if_neg (by simp [h])]

theorem form_of_fault (f : Form) : e.form f = (e, none) := by
  rw [form, if_pos (by simp [h])]

/-- A later immediate may be cut, but its fault is not noted. -/
theorem immediateBytes_of_fault (w : Width) (v : ℤ) : (e.immediateBytes w v).1 = e := by
  unfold immediateBytes
  cases immediate w v with
  | ok bs => rfl
  | error later => exact fail_of_fault h later

theorem formWith_of_fault (w : Width) (v : ℤ) (f : Bytes → Form) :
    e.formWith w v f = (e, none) := by
  simp only [formWith, immediateBytes_of_fault h, form_of_fault h]

theorem shortForm_of_fault (w : Width) (opcode : UInt8) (r : Register) :
    e.shortForm w opcode r = e := by
  rw [shortForm, if_pos (by simp [h])]

theorem shortFormWith_of_fault (w : Width) (opcode : UInt8) (r : Register) (v : ℤ) :
    e.shortFormWith w opcode r v = e := by
  simp only [shortFormWith, immediateBytes_of_fault h, shortForm_of_fault h]
  rw [if_neg (by simp [h])]

theorem ret_of_fault : e.ret = e := by
  rw [ret, if_neg (by simp [h])]

theorem jump_of_fault (opcode : Bytes) (size : ℕ) (patch : Patch) (l : ℤ) :
    e.jump opcode size patch l = e := by
  rw [jump, if_neg (by simp [h])]

theorem address_of_fault (l : ℤ) : e.address l = e := by
  rw [address, if_pos (by simp [h])]

/-- With an earlier fault, an instruction neither writes nor reports anything. -/
theorem emit_of_fault (i : Instruction) : e.emit i = (e, none) := by
  cases i with
  | mov | load | loadZero | loadSign | alu | test | inc | dec | neg | div | shl | shr | lea
  | jmpMemory => exact form_of_fault h _
  | testImmediate => exact formWith_of_fault h _ _ _
  | aluImmediate op w dst v =>
    simp only [emit, formWith_of_fault h, form_of_fault h, ite_self]
  | imul w dst src v => simp only [emit, formWith_of_fault h, form_of_fault h, ite_self]
  | movImmediate w dst v =>
    cases dst with
    | memory m => exact formWith_of_fault h _ _ _
    | register r =>
      simp only [emit, formWith_of_fault h, shortFormWith_of_fault h, ite_self]
  | push | pop => simp only [emit, shortForm_of_fault h]
  | ret => simp only [emit, ret_of_fault h]
  | jmp | jmpShort | jcc | jccShort | call => simp only [emit, jump_of_fault h]
  | address l => simp only [emit, address_of_fault h]

end Faulted

/-- Where the emitter reports nothing, nothing was reported before. -/
theorem error_eq_none_of_emit (h : (e.emit i).1.error = none) : e.error = none := by
  cases he : e.error with
  | none => rfl
  | some fault => rw [emit_of_fault he, he] at h; cases h

theorem error_fail (e : Emitter) (fault : OperandFault) : (e.fail fault).error ≠ none := by
  unfold fail
  split_ifs with h
  · simp
  · simpa using h

/-- What was written for a shape with a place in memory. -/
inductive Wrote (e : Emitter) (s : Shape) (m? : Option Memory) : Emitter → Prop
  | plain (h : ∀ m ∈ m?, m.IsPlain) : Wrote e s m? (e.put s)
  | apart {m : Memory} {l : ℤ} (hm : m? = some m) (hl : m.label = some l)
    (hb : (e.assembler.binding? l).isSome) :
    Wrote e s m?
      (({ e with assembler := (e.assembler.addLabel (.relative l m.displacement)).1 }).put
        (s.aimedAt e.assembler.labels.size))

theorem wrote_put (e : Emitter) (s : Shape) : Wrote e s none (e.put s) := .plain (by simp)

/-- The operand bytes of memory with a label. -/
theorem labelMemory_cases {reg : UInt8} {m : Memory} {l : ℤ} {n : ℕ}
    (h : e.labelMemory reg m l n = (e', none)) (herror : e'.error = none) :
    ∃ bs patch, labelOperand e.mode reg m n = .ok (bs, patch) ∧
      (m.displacement = 0 ∧ e' = e.put { head := bs, field := some (patch, l) } ∨
        (e.assembler.binding? l).isSome ∧
          e' = ({ e with assembler := (e.assembler.addLabel (.relative l m.displacement)).1 }).put
            { head := bs, field := some (patch, e.assembler.labels.size) }) := by
  unfold labelMemory at h
  dsimp only at h
  split at h
  · cases h
  next assembler target htarget =>
    cases hbs : labelOperand e.mode reg m n with
    | error fault =>
      simp only [hbs] at h
      cases h
      exact absurd herror (error_fail _ _)
    | ok x =>
      obtain ⟨bs, patch⟩ := x
      simp only [hbs] at h
      cases h
      refine ⟨bs, patch, rfl, ?_⟩
      split_ifs at htarget with h0
      · cases htarget
        refine .inl ⟨h0, ?_⟩
        rw [← bytes_relocate, labelOperand_width hbs]
      · unfold Assembler.relative at htarget
        split at htarget <;> cases htarget
        next x hx =>
          refine .inr ⟨by rw [hx]; rfl, ?_⟩
          rw [← bytes_relocate, labelOperand_width hbs]
          rfl

/-- A form that was written without a fault. -/
theorem form_wrote (he : e.error = none) (h : e.form f = (e', none)) (herror : e'.error = none) :
    ∃ s, f.shape e.mode = .ok s ∧ Wrote e s f.operand.memory? e' := by
  unfold form at h
  rw [if_neg (by simp [he])] at h
  cases hfault : f.fault? e.mode with
  | some fault =>
    simp only [hfault] at h
    cases h
    exact absurd herror (error_fail _ _)
  | none =>
    simp only [hfault] at h
    have hshape {s : Shape} (hs : f.operandShape e.mode = .ok s) :
        f.shape e.mode = .ok { s with head := f.head ++ s.head, tail := f.immediate } := by
      simp only [Form.shape, hfault, hs, Except.map]
    cases hop : f.operand with
    | register r =>
      simp only [hop] at h
      cases h
      have hs : f.operandShape e.mode = .ok { head := [modRM 3 f.field.low r.low] } := by
        simp only [Form.operandShape, hop]
      refine ⟨_, hshape hs, ?_⟩
      rw [bytes_bytes e, bytes_eq_put e, put_bytes]
      exact wrote_put ..
    | memory m =>
      simp only [hop] at h
      split at h
      · cases h
      next e₁ hmemory =>
        cases h
        have herror₁ : e₁.error = none := herror
        unfold memory at hmemory
        cases hl : m.label with
        | none =>
          simp only [hl] at hmemory
          cases hbs : basedOperand f.field.low m with
          | error fault =>
            simp only [hbs] at hmemory
            cases hmemory
            exact absurd herror₁ (error_fail _ _)
          | ok bs =>
            simp only [hbs] at hmemory
            cases hmemory
            have hs : f.operandShape e.mode = .ok { head := bs } := by
              simp only [Form.operandShape, hop, hl, hbs, Except.map]
            refine ⟨_, hshape hs, ?_⟩
            rw [bytes_bytes e, bytes_eq_put e, put_bytes]
            refine .plain ?_
            rintro _ ⟨⟩ hlabel
            rw [hl] at hlabel
            cases hlabel
        | some l =>
          simp only [hl] at hmemory
          obtain ⟨bs, patch, hbs, hput⟩ := labelMemory_cases hmemory herror₁
          have hmode : (e.bytes f.head).mode = e.mode := rfl
          rw [hmode] at hbs
          have hs : f.operandShape e.mode = .ok { head := bs, field := some (patch, l) } := by
            simp only [Form.operandShape, hop, hl, hbs, Except.map]
          refine ⟨_, hshape hs, ?_⟩
          rcases hput with ⟨h0, rfl⟩ | ⟨hb, rfl⟩
          · rw [bytes_put, put_bytes]
            refine .plain ?_
            rintro _ ⟨⟩ -
            exact h0
          · -- the new label changes no byte, so it may as well be made before the opcode
            have hswap : ({ e.bytes f.head with
                assembler := ((e.bytes f.head).assembler.addLabel
                  (.relative l m.displacement)).1 } : Emitter) =
                ({ e with assembler := (e.assembler.addLabel
                  (.relative l m.displacement)).1 } : Emitter).bytes f.head := rfl
            rw [hswap, bytes_put, put_bytes]
            exact .apart rfl hl hb

theorem formWith_wrote (he : e.error = none) {w : Width} {v : ℤ} {f : Bytes → Form} {x : Operand}
    (h : e.formWith w v f = (e', none)) (herror : e'.error = none)
    (hx : ∀ bs, (f bs).operand = x) :
    ∃ s, shapeWith e.mode (immediate w v) f = .ok s ∧ Wrote e s x.memory? e' := by
  unfold formWith immediateBytes at h
  cases himm : immediate w v with
  | error fault =>
    obtain ⟨fault', hfault⟩ := Option.ne_none_iff_exists'.1 (error_fail e fault)
    simp only [himm, form_of_fault hfault] at h
    cases h
    cases hfault.symm.trans herror
  | ok bs =>
    simp only [himm] at h
    exact hx bs ▸ form_wrote he h herror

theorem shortForm_wrote (he : e.error = none) {w : Width} {opcode : UInt8} {r : Register}
    (h : (e.shortForm w opcode r).error = none) :
    ∃ s, shortShape e.mode w opcode r [] = .ok s ∧ Wrote e s none (e.shortForm w opcode r) := by
  by_cases hr : r.existsIn e.mode
  · refine ⟨_, if_pos hr, ?_⟩
    rw [shortForm_eq he (if_pos hr)]
    exact wrote_put ..
  · rw [shortForm, if_neg (by simp [he]), if_neg hr] at h
    exact absurd h (error_fail _ _)

theorem shortFormWith_wrote (he : e.error = none) {w : Width} {opcode : UInt8} {r : Register}
    {v : ℤ} (h : (e.shortFormWith w opcode r v).error = none) :
    ∃ bs s, immediate w v = .ok bs ∧ shortShape e.mode w opcode r bs = .ok s ∧
      Wrote e s none (e.shortFormWith w opcode r v) := by
  cases himm : immediate w v with
  | error fault =>
    obtain ⟨fault', hfault⟩ := Option.ne_none_iff_exists'.1 (error_fail e fault)
    simp only [shortFormWith, immediateBytes, himm, shortForm_of_fault hfault] at h
    rw [if_neg (by simp [hfault]), hfault] at h
    cases h
  | ok bs =>
    by_cases hr : r.existsIn e.mode
    · refine ⟨bs, _, rfl, if_pos hr, ?_⟩
      rw [shortFormWith_eq he himm (if_pos hr)]
      exact wrote_put ..
    · obtain ⟨fault', hfault⟩ :=
        Option.ne_none_iff_exists'.1 (error_fail e (.noRegister r e.mode))
      simp only [shortFormWith, immediateBytes, himm, shortForm, he, Option.isSome_none,
        Bool.false_eq_true, ↓reduceIte, hr] at h
      rw [if_neg (by simp [hfault]), hfault] at h
      cases h

/-- An emitter that reports no fault has written the shape of the instruction. -/
theorem emit_wrote (h : e.emit i = (e', none)) (herror : e'.error = none) :
    ∃ s, i.shape e.mode = .ok s ∧ Wrote e s i.memory? e' := by
  have he : e.error = none := error_eq_none_of_emit (by rw [h]; exact herror)
  cases i with
  | mov | load | loadZero | loadSign | lea | jmpMemory => exact form_wrote he h herror
  | alu | test | inc | dec | neg | div | shl | shr => exact form_wrote he h herror
  | testImmediate => exact formWith_wrote he h herror fun _ => rfl
  | aluImmediate op w dst v =>
    simp only [emit, Instruction.shape] at h ⊢
    split_ifs at h ⊢
    · exact formWith_wrote he h herror fun _ => rfl
    · exact form_wrote he h herror
    · exact formWith_wrote he h herror fun _ => rfl
  | imul w dst src v =>
    simp only [emit, Instruction.shape] at h ⊢
    split_ifs at h ⊢
    · exact form_wrote he h herror
    · exact @formWith_wrote e e' he _ _ _ (.register src) h herror fun _ => rfl
  | movImmediate w dst v =>
    cases dst with
    | memory m => exact formWith_wrote he h herror fun _ => rfl
    | register r =>
      simp only [emit, Instruction.shape] at h ⊢
      split_ifs at h ⊢
      · exact formWith_wrote he h herror fun _ => rfl
      · cases h
        obtain ⟨bs, s, himm, hs, hwrote⟩ := shortFormWith_wrote he herror
        exact ⟨s, by rw [himm]; exact hs, hwrote⟩
  | push | pop =>
    cases h
    exact shortForm_wrote he herror
  | ret =>
    cases h
    rw [ret_eq he]
    exact ⟨_, rfl, wrote_put ..⟩
  | jmp l | jmpShort l | jcc c l | jccShort c l | call l =>
    cases h
    exact ⟨_, rfl, jump_eq he _ _ l ▸ wrote_put ..⟩
  | address l =>
    cases h
    rw [address_eq he]
    exact ⟨_, rfl, wrote_put ..⟩

end Emitter
end PortCodec.X86
