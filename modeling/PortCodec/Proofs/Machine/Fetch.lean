import PortCodec.Proofs.Encoding.Decoding
import PortCodec.Proofs.Machine.Execution

/-! One step at the bytes of an instruction carries the instruction out, with its labels at the
addresses that its field leads to. -/

namespace PortCodec.X86

open Assembly (Patch)

variable {g : Guard} {mode : Mode} {f : Form} {s : Shape} {i : Instruction}

section Size

theorem length_displacementBytes (m : Memory) (k : UInt8) : (m.displacementBytes k).length ≤ 4 := by
  unfold Memory.displacementBytes
  split_ifs <;> simp

theorem length_basedOperand {reg : UInt8} {m : Memory} {bs : Bytes}
    (h : basedOperand reg m = .ok bs) : bs.length ≤ 6 := by
  cases hbase : m.base with
  | none => simp [basedOperand, hbase] at h
  | some base =>
    have hd := length_displacementBytes m (m.modBits base)
    rw [basedOperand_eq reg hbase] at h
    split at h
    · split_ifs at h <;> cases h <;> simp only [List.length_cons] <;> omega
    · split at h <;> cases h
      simp only [List.length_cons]
      omega

theorem length_labelOperand {reg : UInt8} {m : Memory} {n : ℕ} {bs : Bytes} {patch : Patch}
    (h : labelOperand mode reg m n = .ok (bs, patch)) : bs.length ≤ 2 := by
  unfold labelOperand at h
  split_ifs at h
  · cases h
    simp
  · split at h
    · cases h
      simp
    · split at h <;> cases h
      simp

theorem Form.operandShape_size (h : f.operandShape mode = .ok s) : s.size ≤ 6 := by
  rcases f.operandShape_cases h with ⟨r, -, rfl⟩ | ⟨m, l, bs, patch, -, -, hbs, rfl⟩ |
    ⟨m, bs, -, -, hbs, rfl⟩
  · simp [Shape.size, Shape.room]
  · have h2 := length_labelOperand hbs
    have h4 := Emitter.labelOperand_width hbs
    simp only [Shape.size, Shape.room, Option.elim_some, List.length_nil]
    omega
  · simpa [Shape.size, Shape.room] using length_basedOperand hbs

theorem Form.shape_size (h : f.shape mode = .ok s) :
    s.size ≤ f.opcode.length + f.immediate.length + 8 := by
  obtain ⟨-, s', hs', rfl⟩ := f.shape_cases h
  have h6 := operandShape_size hs'
  have hhead : f.head.length ≤ f.opcode.length + 2 := by
    unfold head
    split_ifs <;> simp
  simp only [Shape.size, Shape.room, List.length_append] at h6 ⊢
  omega

theorem length_immediate {w : Width} {v : ℤ} {bs : Bytes} (h : immediate w v = .ok bs) :
    bs.length ≤ 4 := by
  cases w <;> simp only [immediate] at h
  · split_ifs at h; cases h; simp [Width.immediate, Width.size]
  · split_ifs at h; cases h; simp [Width.immediate, Width.size]
  · cases h; simp [Width.immediate, Width.size]
  · cases h; simp [Width.immediate, Width.size]

theorem shapeWith_size {imm : Except OperandFault Bytes} {f : Bytes → Form} {k : ℕ}
    (h : shapeWith mode imm f = .ok s) (himm : ∀ bs, imm = .ok bs → bs.length ≤ 4)
    (hf : ∀ bs, (f bs).immediate = bs ∧ (f bs).opcode.length ≤ k) : s.size ≤ k + 12 := by
  cases himm' : imm with
  | error fault => simp [himm', shapeWith] at h
  | ok bs =>
    rw [himm', shapeWith] at h
    have hs := Form.shape_size h
    have h4 := himm bs himm'
    rw [(hf bs).1] at hs
    have hk := (hf bs).2
    omega

theorem shortShape_size {w : Width} {opcode : UInt8} {r : Register} {more : Bytes}
    (h : shortShape mode w opcode r more = .ok s) : s.size ≤ more.length + 3 := by
  obtain ⟨-, rfl⟩ := shortShape_cases h
  simp only [Shape.size, Shape.room, Option.elim_none, List.length_append, List.length_cons,
    List.length_nil]
  split_ifs <;> simp <;> omega

/-- No instruction is longer than the machine allows. -/
theorem Instruction.shape_size (h : i.shape mode = .ok s) : s.size ≤ 15 := by
  have himm (w : Width) (v : ℤ) : ∀ bs, immediate w v = .ok bs → bs.length ≤ 4 :=
    fun _ => length_immediate
  cases i with
  | mov | load | loadZero | loadSign | alu | test | inc | dec | neg | div | shl | shr | lea
  | jmpMemory =>
    have := Form.shape_size h
    simp only [Emitter.pick, List.length_cons, List.length_nil] at this
    omega
  | testImmediate w a v =>
    have := shapeWith_size h (himm w v) (k := 1) fun _ => ⟨rfl, le_rfl⟩
    omega
  | imul w dst src v =>
    simp only [shape] at h
    split_ifs at h
    · have := Form.shape_size h
      simp only [Emitter.signedByte, Bytes.littleEndian_length, List.length_cons,
        List.length_nil] at this
      omega
    · have := shapeWith_size h (himm w v) (k := 1) fun _ => ⟨rfl, le_rfl⟩
      omega
  | aluImmediate op w dst v =>
    simp only [shape] at h
    split_ifs at h
    · have := shapeWith_size h (himm w v) (k := 1) fun _ => ⟨rfl, le_rfl⟩
      omega
    · have := Form.shape_size h
      simp only [Emitter.signedByte, Bytes.littleEndian_length, List.length_cons,
        List.length_nil] at this
      omega
    · have := shapeWith_size h (himm w v) (k := 1) fun _ => ⟨rfl, le_rfl⟩
      omega
  | movImmediate w dst v =>
    cases dst with
    | memory m =>
      have := shapeWith_size h (himm w v) (k := 1) fun _ => ⟨rfl, le_rfl⟩
      omega
    | register r =>
      simp only [shape] at h
      split_ifs at h
      · have := shapeWith_size h (himm w v) (k := 1) fun _ => ⟨rfl, le_rfl⟩
        omega
      · split at h
        · cases h
        next bs hbs =>
          have h3 := shortShape_size h
          have h4 := himm w v bs hbs
          omega
  | push | pop =>
    have := shortShape_size h
    simp only [List.length_nil] at this
    omega
  | ret | jmp | jmpShort | jcc | jccShort | call =>
    cases h
    simp [Shape.size, Shape.room, Patch.width]
  | address l =>
    cases h
    simp only [Shape.size, Shape.room, Option.elim_some, List.length_nil]
    split_ifs <;> decide

theorem Form.shape_pos (h : f.shape mode = .ok s) (hop : f.opcode ≠ []) : 0 < s.size := by
  obtain ⟨-, s', -, rfl⟩ := f.shape_cases h
  have hpos := List.length_pos_of_ne_nil hop
  simp only [Shape.size, head, List.length_append]
  omega

theorem shapeWith_pos {imm : Except OperandFault Bytes} {f : Bytes → Form}
    (h : shapeWith mode imm f = .ok s) (hop : ∀ bs, (f bs).opcode ≠ []) : 0 < s.size := by
  obtain ⟨bs, -, hs⟩ := shapeWith_cases h
  exact Form.shape_pos hs (hop bs)

theorem shortShape_pos {w : Width} {opcode : UInt8} {r : Register} {more : Bytes}
    (h : shortShape mode w opcode r more = .ok s) : 0 < s.size := by
  obtain ⟨-, rfl⟩ := shortShape_cases h
  simp only [Shape.size, List.length_append, List.length_cons]
  omega

/-- Every instruction takes room. -/
theorem Instruction.shape_pos (h : i.shape mode = .ok s) : 0 < s.size := by
  cases i with
  | mov | load | loadZero | loadSign | alu | test | inc | dec | neg | div | shl | shr | lea
  | jmpMemory => exact Form.shape_pos h (List.cons_ne_nil _ _)
  | testImmediate w a v => exact shapeWith_pos h fun _ => List.cons_ne_nil _ _
  | imul w dst src v =>
    simp only [shape] at h
    split_ifs at h
    · exact Form.shape_pos h (List.cons_ne_nil _ _)
    · exact shapeWith_pos h fun _ => List.cons_ne_nil _ _
  | aluImmediate op w dst v =>
    simp only [shape] at h
    split_ifs at h
    · exact shapeWith_pos h fun _ => List.cons_ne_nil _ _
    · exact Form.shape_pos h (List.cons_ne_nil _ _)
    · exact shapeWith_pos h fun _ => List.cons_ne_nil _ _
  | movImmediate w dst v =>
    cases dst with
    | memory m => exact shapeWith_pos h fun _ => List.cons_ne_nil _ _
    | register r =>
      simp only [shape] at h
      split_ifs at h
      · exact shapeWith_pos h fun _ => List.cons_ne_nil _ _
      · split at h
        · cases h
        · exact shortShape_pos h
  | push | pop => exact shortShape_pos h
  | ret | jmp | jmpShort | jcc | jccShort | call =>
    cases h
    simp [Shape.size]
  | address l =>
    cases h
    simp only [Shape.size, Shape.room, Option.elim_some]
    split_ifs <;> decide

end Size

section Window

variable {m : Machine}

def Guard.Holds (g : Guard) (memory : ℕ → UInt8) (a : ℕ) (bs : Bytes) : Prop :=
  ∀ k (h : k < bs.length), g.executable ((a + k) % g.space) = true ∧
    memory ((a + k) % g.space) = bs.get ⟨k, h⟩

theorem window_eq {bs : Bytes} (h : g.Holds m.memory m.next bs) (hlen : bs.length ≤ 15) :
    ∃ rest, m.window g = bs ++ rest := by
  obtain ⟨n, hn⟩ : ∃ n, 15 = bs.length + n := ⟨15 - bs.length, by omega⟩
  unfold Machine.window
  rw [hn, List.range_add, List.map_append, List.takeWhile_append_of_pos]
  · rw [List.map_append]
    refine ⟨_, congrArg (· ++ _) (List.ext_get (by simp) fun k h1 h2 => ?_)⟩
    simpa using (h k h2).2
  · intro a ha
    simp only [List.mem_map, List.mem_range] at ha
    obtain ⟨k, hk, rfl⟩ := ha
    exact (h k hk).1

/-- The step at the bytes of an instruction. -/
theorem step_of_holds {field : Bytes} (hmode : g.mode = .bits32 ∨ g.mode = .bits64)
    (hs : i.shape g.mode = .ok s) (hi : i.Regular) (hfits : ∀ x ∈ i.memory?, x.Fits)
    (hfield : field.length = s.room) (h : g.Holds m.memory m.next (s.fill field)) :
    m.step g = ({ m with next := (m.next + s.size) % g.space }).execute g
      (fun d => (((m.next + s.size) % g.space + d) % g.space).toNat)
      (i.decoded g.mode field.signed) := by
  have hsize := Instruction.shape_size hs
  rw [← s.length_fill hfield] at hsize ⊢
  obtain ⟨rest, hw⟩ := window_eq h hsize
  simp only [Machine.step, hw, Instruction.decode?_shape hmode hs hi hfits hfield,
    Option.bind_eq_bind, Option.bind_some, List.length_append, Nat.add_sub_cancel, Int.natCast_emod,
    Nat.cast_add]

end Window

section Labels

variable {m : Machine} {place : ℤ → ℕ} {n : ℤ}

/-- The number in a field leads to an address, for an instruction that ends at `next`. -/
def Guard.Leads (g : Guard) (next : ℕ) (n : ℤ) (p : ℕ) : Patch → Prop
  | .abs32 | .abs64 => p = (n % g.space).toNat
  | .rel8 | .rel32 _ => p = ((next + n) % g.space).toNat

/-- The numbers in a field lead where the label of the field is. -/
def Guard.Resolves (g : Guard) (place : ℤ → ℕ) (next : ℕ) (n : ℤ) (s : Shape) : Prop :=
  ∀ patch l, s.field = some (patch, l) → g.Leads next n (place l) patch

theorem Guard.space_pos (g : Guard) : 0 < g.space := Nat.pow_pos (by decide)

theorem labelOperand_patch {reg : UInt8} {x : Memory} {k : ℕ} {bs : Bytes} {patch : Patch}
    (h : labelOperand mode reg x k = .ok (bs, patch)) :
    x.base = none ∧ (mode = .bits64 ∧ x.index = none ∧ patch = .rel32 k ∨
      mode ≠ .bits64 ∧ patch = .abs32) := by
  unfold labelOperand at h
  split_ifs at h with hb h64 hi
  · cases h
    exact ⟨by simpa using hb, .inl ⟨h64, by simpa using hi, rfl⟩⟩
  · refine ⟨by simpa using hb, .inr ⟨h64, ?_⟩⟩
    split at h
    · cases h
      rfl
    · split at h <;> cases h
      rfl

theorem Memory.readScale_of_isSome {x : Memory} (h : x.index.isSome) :
    max 1 x.readScale.toNat = max 1 x.scale.toNat := by
  have hno : x.index.isNone = false := by simpa [← Option.not_isSome] using h
  unfold readScale
  by_cases h0 : x.scale = 0 <;> simp [hno, h0]

/-- The address of an operand that was read back. -/
theorem Form.address_decoded {x : Memory} (hop : f.operand = .memory x) (hx : x.IsPlain)
    (hs : f.operandShape g.mode = .ok s) (hr : g.Resolves place m.next n s) :
    m.address g (fun d => ((m.next + d) % g.space).toNat) (x.decoded g.mode n) =
      m.address g place x := by
  have hscale : ∀ r, x.index = some r → max 1 x.readScale.toNat = max 1 x.scale.toNat :=
    fun r h => Memory.readScale_of_isSome (by simp [h])
  rcases f.operandShape_cases hs with ⟨r, hop', rfl⟩ | ⟨x', l, bs, patch, hop', hl, hbs, rfl⟩ |
    ⟨x', bs, hop', hl, hbs, rfl⟩
  · rw [hop] at hop'
    cases hop'
  · rw [hop] at hop'
    cases hop'
    have h0 : x.displacement = 0 := hx (by simp [hl])
    have hlead := hr patch l rfl
    obtain ⟨hbase, ⟨h64, hidx, rfl⟩ | ⟨h32, rfl⟩⟩ := labelOperand_patch hbs
    · have hp : place l = _ := hlead
      simp [Machine.address, Memory.decoded, hl, h64, hidx, h0, hp]
    · have hp : place l = (n % g.space).toNat := hlead
      have hn : ((n % g.space).toNat : ℤ) = n % g.space :=
        Int.toNat_of_nonneg (Int.emod_nonneg _ (by have := g.space_pos; omega))
      cases hidx : x.index with
      | none =>
        simp [Machine.address, Memory.decoded, hl, h32, hidx, h0, hp, hn]
      | some r =>
        simp only [Machine.address, Memory.decoded, hl, h32, hidx, h0, hp, ↓reduceIte,
          hscale r hidx, Nat.cast_zero, zero_add, add_zero, hn]
        rw [Int.emod_add_emod, add_comm]
  · rw [hop] at hop'
    cases hop'
    cases hbase : x.base <;> cases hidx : x.index with
    | none => simp [Machine.address, Memory.decoded, hl, hbase, hidx]
    | some r => simp [Machine.address, Memory.decoded, hl, hbase, hidx, hscale r hidx]

theorem Width.ofInt_readBack {w : Width} {v : ℤ} (h : w.Holds v) :
    w.ofInt (w.readBack v) = w.ofInt v := by
  cases w with
  | byte => simp [ofInt, readBack, span, Width.size]
  | word => exact congrArg Int.toNat (Int.bmod_emod ..)
  | dword => exact congrArg Int.toNat (Int.bmod_emod ..)
  | qword =>
    have := h rfl
    have hv : v.bmod (2 ^ 32) = v := by
      rw [Int.bmod_def]
      split <;> omega
    rw [readBack, hv]

theorem Form.address_shape {x : Memory} (hs : f.shape g.mode = .ok s) (hop : f.operand = .memory x)
    (hx : x.IsPlain) (hr : g.Resolves place m.next n s) :
    m.address g (fun d => ((m.next + d) % g.space).toNat) (x.decoded g.mode n) =
      m.address g place x := by
  obtain ⟨-, s', hs', rfl⟩ := f.shape_cases hs
  exact address_decoded hop hx hs' hr

/-- An operand that was read back names the same value and the same place. -/
theorem Form.fetch_shape (hs : f.shape g.mode = .ok s) (hp : ∀ x ∈ f.operand.memory?, x.IsPlain)
    (hr : g.Resolves place m.next n s) (w : Width) :
    m.fetch g (fun d => ((m.next + d) % g.space).toNat) w (f.operand.decoded g.mode n) =
      m.fetch g place w f.operand := by
  cases hop : f.operand with
  | register r => rfl
  | memory x =>
    exact congrArg (m.load g w) (address_shape hs hop (hp x (by simp [hop, Operand.memory?])) hr)

theorem Form.assign_shape (hs : f.shape g.mode = .ok s) (hp : ∀ x ∈ f.operand.memory?, x.IsPlain)
    (hr : g.Resolves place m.next n s) (flags : Flags) (w : Width) (v : ℕ) :
    ({ m with flags }).assign g (fun d => ((m.next + d) % g.space).toNat) w
      (f.operand.decoded g.mode n) v = ({ m with flags }).assign g place w f.operand v := by
  cases hop : f.operand with
  | register r => rfl
  | memory x =>
    exact congrArg (({ m with flags } : Machine).store g w · v)
      (address_shape hs hop (hp x (by simp [hop, Operand.memory?])) hr)

theorem Form.alu_shape (hs : f.shape g.mode = .ok s) (hp : ∀ x ∈ f.operand.memory?, x.IsPlain)
    (hr : g.Resolves place m.next n s) (op : Alu) (w : Width) (b : ℕ) :
    m.alu g (fun d => ((m.next + d) % g.space).toNat) op w (f.operand.decoded g.mode n) b =
      m.alu g place op w f.operand b := by
  unfold Machine.alu
  rw [fetch_shape hs hp hr]
  refine congrArg _ (funext fun a => congrArg _ (funext fun x => ?_))
  obtain ⟨result, flags⟩ := x
  cases result with
  | none => rfl
  | some r => exact assign_shape hs hp hr flags w r

/-- An instruction that was read back does what it was written for. -/
theorem execute_decoded (hs : i.shape g.mode = .ok s) (hi : i.Regular)
    (hp : ∀ x ∈ i.memory?, x.IsPlain) (hr : g.Resolves place m.next n s) :
    m.execute g (fun d => ((m.next + d) % g.space).toNat) (i.decoded g.mode n) =
      m.execute g place i := by
  cases i with
  | mov w dst src =>
    simp only [Machine.execute, Instruction.decoded]
    rw [← Form.assign_shape hs hp hr m.flags]
  | load w dst src =>
    simp only [Machine.execute, Instruction.decoded, Machine.assign]
    rw [Form.address_shape hs rfl (hp src rfl) hr]
  | loadZero dst w src | loadSign dst w src | lea dst src | jmpMemory src =>
    simp only [Machine.execute, Instruction.decoded]
    rw [Form.address_shape hs rfl (hp src rfl) hr]
  | movImmediate w dst v =>
    simp only [Machine.execute, Instruction.decoded, Width.ofInt_readBack hi]
    cases dst with
    | register r => rfl
    | memory x =>
      obtain ⟨bs, -, hs'⟩ := shapeWith_cases hs
      exact Form.assign_shape hs' hp hr m.flags w _
  | testImmediate w a v =>
    obtain ⟨bs, -, hs'⟩ := shapeWith_cases hs
    simp only [Machine.execute, Instruction.decoded, Width.ofInt_readBack hi]
    rw [Form.fetch_shape hs' hp hr w]
  | aluImmediate op w dst v =>
    have hv : w.ofInt (if w ≠ .byte ∧ fitsByte v then v else w.readBack v) = w.ofInt v := by
      split_ifs
      · rfl
      · exact Width.ofInt_readBack hi.2
    simp only [Machine.execute, Instruction.decoded, hv]
    simp only [Instruction.shape] at hs
    split_ifs at hs
    · obtain ⟨bs, -, hs'⟩ := shapeWith_cases hs
      exact Form.alu_shape hs' hp hr op w _
    · exact Form.alu_shape hs hp hr op w _
    · obtain ⟨bs, -, hs'⟩ := shapeWith_cases hs
      exact Form.alu_shape hs' hp hr op w _
  | imul w dst src v =>
    have hv : w.ofInt (if fitsByte v then v else w.readBack v) = w.ofInt v := by
      split_ifs
      · rfl
      · exact Width.ofInt_readBack hi.2
    simp only [Machine.execute, Instruction.decoded, hv]
  | jmp l | jmpShort l | call l =>
    cases hs
    have hl : place l = _ := hr _ l rfl
    simp only [Machine.execute, Instruction.decoded, hl]
  | jcc c l | jccShort c l =>
    cases hs
    have hl : place l = _ := hr _ l rfl
    simp only [Machine.execute, Machine.branch, Instruction.decoded, hl]
  | alu | test | inc | dec | neg | div | shl | shr | push | pop | ret | address => rfl

/-- The step at the bytes of an instruction carries it out. -/
theorem step_eq {field : Bytes} (hmode : g.mode = .bits32 ∨ g.mode = .bits64)
    (hs : i.shape g.mode = .ok s) (hi : i.Regular)
    (hmem : ∀ x ∈ i.memory?, x.Fits ∧ x.IsPlain) (hfield : field.length = s.room)
    (h : g.Holds m.memory m.next (s.fill field))
    (hr : g.Resolves place ((m.next + s.size) % g.space) field.signed s) :
    m.step g = ({ m with next := (m.next + s.size) % g.space }).execute g place i := by
  rw [step_of_holds hmode hs hi (fun x hx => (hmem x hx).1) hfield h]
  exact execute_decoded hs hi (fun x hx => (hmem x hx).2) hr

end Labels

end PortCodec.X86
