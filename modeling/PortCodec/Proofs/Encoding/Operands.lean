import PortCodec.Proofs.Cell
import PortCodec.Proofs.Encoding.Shape
import PortCodec.X86.Decoder

/-! Reading back the bytes around an opcode: the size byte and the REX byte before it, and the
operand bytes behind it. -/

namespace PortCodec

def Bytes.signed (bs : Bytes) : ℤ := (Bytes.toNatLE bs : ℤ).bmod (Nat.pow 256 bs.length)

namespace X86

open Decoder

variable {mode : Mode} {f : Form} {s : Shape} {m : Memory} {rest : Bytes}

theorem signed?_append (bs rest : Bytes) :
    signed? bs.length (bs ++ rest) = some (bs.signed, rest) := by
  simp [signed?, Bytes.signed]

/-- A distance written in one or four bytes reads as itself. -/
theorem signed_littleEndian {k : ℕ} {d : ℤ} (hk : k = 1 ∧ fitsByte d = true ∨ k = 4)
    (hd : -2 ^ 31 ≤ d ∧ d < 2 ^ 31) :
    (Bytes.littleEndian k (d % 2 ^ 32).toNat).signed = d := by
  unfold Bytes.signed
  rw [Bytes.toNatLE_littleEndian, Bytes.littleEndian_length]
  rcases hk with ⟨rfl, hfit⟩ | rfl
  · simp only [fitsByte, Bool.and_eq_true, decide_eq_true_eq] at hfit
    simp only [Nat.pow_eq, Int.bmod_def]
    split <;> omega
  · simp only [Nat.pow_eq, Int.bmod_def]
    split <;> omega

section Bits

theorem ofNat_toNat_of_lt {b : UInt8} {k : ℕ} (h : b.toNat < k) : ∃ i : Fin k, b = UInt8.ofNat i :=
  ⟨⟨b.toNat, h⟩, by simp⟩

theorem low_lt (r : Register) : r.low.toNat < 8 := by
  have h : (r.number &&& 7).toNat ≤ 7 := by
    rw [UInt8.toNat_and]
    exact Nat.and_le_right
  exact Nat.lt_succ_of_le h

theorem Field.low_lt (f : Field) : f.low.toNat < 8 := by
  cases f with
  | register r => exact X86.low_lt r
  | opcode n => exact X86.low_lt ⟨n⟩

/-- The three parts of an operand byte. -/
theorem modRM_parts {a b c : UInt8} (ha : a.toNat < 4) (hb : b.toNat < 8) (hc : c.toNat < 8) :
    Decoder.mod (modRM a b c) = a ∧ reg (modRM a b c) = b ∧ rm (modRM a b c) = c := by
  obtain ⟨a, rfl⟩ := ofNat_toNat_of_lt ha
  obtain ⟨b, rfl⟩ := ofNat_toNat_of_lt hb
  obtain ⟨c, rfl⟩ := ofNat_toNat_of_lt hc
  revert a b c
  decide

theorem register_low {r : Register} (h : r.number.toNat < 16) :
    register r.isExtended r.low = r := by
  obtain ⟨n⟩ := r
  obtain ⟨i, rfl⟩ := ofNat_toNat_of_lt h
  revert i
  decide

def rexByte (x : Rex) : UInt8 :=
  (if x.wide then 8 else 0) ||| (if x.reg then 4 else 0) |||
    ((if x.base then 1 else 0) ||| (if x.index then 2 else 0))

theorem ofByte_rexByte (x : Rex) : Rex.ofByte (0x40 ||| rexByte x) = x := by
  obtain ⟨a, b, c, d⟩ := x
  cases a <;> cases b <;> cases c <;> cases d <;> rfl

theorem rexByte_high (x : Rex) :
    (0x40 ||| rexByte x) &&& 0xf0 = 0x40 ∧ (0x40 ||| rexByte x) ≠ 0x66 := by
  obtain ⟨a, b, c, d⟩ := x
  cases a <;> cases b <;> cases c <;> cases d <;> decide

theorem rexByte_eq_zero {x : Rex} (h : rexByte x = 0) : x = {} := by
  have hx := ofByte_rexByte x
  rw [h] at hx
  exact hx.symm

end Bits

def Form.rex (f : Form) : Rex where
  wide := f.width = .qword
  reg := match f.field with
    | .register r => r.isExtended
    | .opcode _ => false
  index := match f.operand with
    | .register _ => false
    | .memory m => m.index.any (·.isExtended)
  base := match f.operand with
    | .register r => r.isExtended
    | .memory m => m.base.any (·.isExtended)

theorem Form.rexBits_eq (f : Form) : f.rexBits = rexByte f.rex := by
  obtain ⟨w, opcode, field, operand, imm⟩ := f
  simp only [rexBits, rexByte, rex, decide_eq_true_eq]
  congr 1
  · cases field <;> rfl
  · cases operand with
    | register r => exact UInt8.or_zero.symm
    | memory m =>
      obtain ⟨base, index, scale, displacement, label⟩ := m
      cases base <;> cases index <;> rfl

/-- What a form that can be encoded keeps to. -/
structure Form.Encodable (mode : Mode) (f : Form) : Prop where
  registers : ∀ r ∈ f.registers, r.existsIn mode = true
  memory : ∀ m ∈ f.operand.memory?, Form.memoryFault? mode m = none
  noRex : mode = .bits32 → f.rexBits = 0 ∧ f.forcesRex = false

theorem Form.encodable (h : f.fault? mode = none) : f.Encodable mode := by
  unfold fault? at h
  split at h
  · cases h
  · split at h
    · cases h
    next hreg =>
      split at h
      · cases h
      next hmem =>
        split at h
        · cases h
        next hrex =>
          refine ⟨fun r hr => ?_, fun m hm => ?_, fun hmode => ?_⟩
          · have hmiss := List.findSome?_eq_none_iff.1 hreg r hr
            by_contra hno
            simp [missing?, hno] at hmiss
          · cases hop : f.operand with
            | register r => simp [hop, Operand.memory?] at hm
            | memory m' =>
              simp only [hop, Operand.memory?, Option.mem_some_iff] at hm hmem
              exact hm ▸ hmem
          · simpa [hmode] using hrex

theorem Form.fault?_eq_none (h : f.Encodable mode)
    (hw : f.width = .qword → mode = .bits64) : f.fault? mode = none := by
  have hwide : ¬ (f.width = .qword && mode ≠ .bits64) = true := by
    simpa using hw
  have hmissing : f.registers.findSome? (missing? mode) = none := by
    rw [List.findSome?_eq_none_iff]
    intro r hr
    simp [missing?, h.registers r hr]
  have hrex : ¬ (mode = .bits32 && (f.rexBits != 0 || f.forcesRex)) = true := by
    simpa using h.noRex
  have hmemory := h.memory
  unfold fault?
  rw [if_neg hwide, hmissing]
  cases hop : f.operand with
  | register r => simp only [if_neg hrex]
  | memory x =>
    rw [hop] at hmemory
    simp only [hmemory x rfl, if_neg hrex]

def decodeRex? (mode : Mode) (small : Bool) : Bytes → Option (Instruction × Bytes)
  | [] => none
  | b :: rest =>
    if mode = .bits64 ∧ b &&& 0xf0 = 0x40 then opcode? mode small (.ofByte b) rest
    else opcode? mode small {} (b :: rest)

theorem decode?_small (mode : Mode) (bs : Bytes) :
    decode? mode (0x66 :: bs) = decodeRex? mode true bs := by
  cases bs <;> rfl

theorem decode?_cons {b : UInt8} (mode : Mode) (hb : b ≠ 0x66) (bs : Bytes) :
    decode? mode (b :: bs) = decodeRex? mode false (b :: bs) := by
  unfold decode?
  split
  next small bs' heq =>
    split at heq
    next h => exact absurd (List.cons.inj h).1 hb
    next => cases heq; rfl

/-- An opcode byte that no prefix is mistaken for. -/
def IsOpcode (b : UInt8) : Prop := b ≠ 0x66 ∧ b &&& 0xf0 ≠ 0x40

instance (b : UInt8) : Decidable (IsOpcode b) := inferInstanceAs (Decidable (_ ∧ _))

theorem decodeRex?_opcode {b : UInt8} (hb : IsOpcode b) (small : Bool) (bs : Bytes) :
    decodeRex? mode small (b :: bs) = opcode? mode small {} (b :: bs) := by
  simp [decodeRex?, hb.2]

theorem decodeRex?_rex (x : Rex) (small : Bool) (bs : Bytes) :
    decodeRex? .bits64 small ((0x40 ||| rexByte x) :: bs) = opcode? .bits64 small x bs := by
  simp [decodeRex?, (rexByte_high x).1, ofByte_rexByte]

/-- What stands before an opcode is read back. -/
theorem decode?_prefixes {small : Bool} {x : Rex} {b : UInt8} (rex : Bytes) (hb : IsOpcode b)
    (hrex : rex = [] ∧ x = {} ∨ mode = .bits64 ∧ rex = [0x40 ||| rexByte x]) (bs : Bytes) :
    decode? mode ((if small then [0x66] else []) ++ rex ++ b :: bs) =
      opcode? mode small x (b :: bs) := by
  rcases hrex with ⟨rfl, rfl⟩ | ⟨rfl, rfl⟩
  · cases small
    · exact (decode?_cons mode hb.1 bs).trans (decodeRex?_opcode hb false bs)
    · exact (decode?_small mode _).trans (decodeRex?_opcode hb true bs)
  · cases small
    · exact (decode?_cons .bits64 (rexByte_high x).2 _).trans (decodeRex?_rex x false _)
    · exact (decode?_small .bits64 _).trans (decodeRex?_rex x true _)

theorem Form.decode?_head {b : UInt8} {more : Bytes} (hmode : mode = .bits32 ∨ mode = .bits64)
    (hfault : f.fault? mode = none) (hop : f.opcode = b :: more) (hb : IsOpcode b) (bs : Bytes) :
    decode? mode (f.head ++ bs) = opcode? mode (f.width = .word) f.rex (b :: (more ++ bs)) := by
  have hhead : f.head ++ bs = (if decide (f.width = .word) = true then [0x66] else []) ++
      (if f.rexBits != 0 || f.forcesRex then [0x40 ||| f.rexBits] else []) ++ b ::
        (more ++ bs) := by
    simp [head, hop]
  rw [hhead]
  refine decode?_prefixes _ hb ?_ _
  rcases hmode with rfl | rfl
  · obtain ⟨hbits, hforce⟩ := (encodable hfault).noRex rfl
    exact .inl ⟨by simp [hbits, hforce], rexByte_eq_zero (f.rexBits_eq ▸ hbits)⟩
  · by_cases hr : f.rexBits != 0 || f.forcesRex
    · exact .inr ⟨rfl, by rw [if_pos hr, f.rexBits_eq]⟩
    · refine .inl ⟨if_neg hr, rexByte_eq_zero (f.rexBits_eq ▸ ?_)⟩
      simp only [Bool.or_eq_true, bne_iff_ne, ne_eq, not_or, not_not] at hr
      exact hr.1

theorem number_lt_of_existsIn {r : Register} (h : r.existsIn mode = true) :
    r.number.toNat < 16 := by
  unfold Register.existsIn at h
  split at h <;> simp only [decide_eq_true_eq, UInt8.le_iff_toNat_le] at h
  · exact Nat.lt_succ_of_le h
  · exact Nat.lt_of_le_of_lt h (by decide)

theorem isExtended_of_existsIn_bits32 {r : Register} (h : r.existsIn .bits32 = true) :
    r.isExtended = false := by
  have h7 : r.number.toNat ≤ 7 := by
    simpa [Register.existsIn, UInt8.le_iff_toNat_le] using h
  have h8 : ¬ 8 ≤ r.number.toNat := by omega
  simp [Register.isExtended, UInt8.le_iff_toNat_le, h8]

theorem Form.base_lt (h : Form.memoryFault? mode m = none) {r : Register} (hr : m.base = some r) :
    r.number.toNat < 16 := by
  apply @number_lt_of_existsIn mode
  by_contra hno
  simp [memoryFault?, hr, missing?, hno] at h

theorem Form.index_lt (h : Form.memoryFault? mode m = none) {r : Register} (hr : m.index = some r) :
    r.number.toNat < 16 ∧ r ≠ .rsp := by
  unfold memoryFault? at h
  split at h
  · cases h
  · rw [hr, Option.bind_some] at h
    split at h
    · cases h
    next hmiss =>
      refine ⟨@number_lt_of_existsIn mode _ ?_, ?_⟩
      · by_contra hno
        simp [missing?, hno] at hmiss
      · rintro rfl
        simp at h

def Memory.modBits (m : Memory) (base : Register) : UInt8 :=
  if m.displacement = 0 && base.low != 5 then 0 else if fitsByte m.displacement then 1 else 2

/-- The displacement as the mode bits announce it. -/
def Memory.displacementBytes (m : Memory) (k : UInt8) : Bytes :=
  if k = 0 then [] else Bytes.littleEndian (if k = 1 then 1 else 4) (m.displacement % 2 ^ 32).toNat

/-- The scale that is read back: an index without one is taken once. -/
def Memory.readScale (m : Memory) : UInt8 :=
  if m.index.isNone ∨ m.scale = 0 then 1 else m.scale

/-- What is read back for a place in memory whose field holds `n`. -/
def Memory.decoded (mode : Mode) (n : ℤ) (m : Memory) : Memory :=
  match m.label with
  | none => { m with scale := m.readScale }
  | some _ =>
    if mode = .bits64 then { label := some n }
    else { index := m.index, scale := m.readScale, displacement := n }

def Operand.decoded (mode : Mode) (n : ℤ) : Operand → Operand
  | .register r => .register r
  | .memory m => .memory (m.decoded mode n)

/-- Displacements are signed numbers of 32 bits. -/
def Memory.Fits (m : Memory) : Prop := -2 ^ 31 ≤ m.displacement ∧ m.displacement < 2 ^ 31

instance (m : Memory) : Decidable m.Fits := inferInstanceAs (Decidable (_ ∧ _))

theorem Memory.modBits_cases (m : Memory) (base : Register) :
    m.modBits base = 0 ∧ m.displacement = 0 ∧ base.low ≠ 5 ∨
    m.modBits base = 1 ∧ fitsByte m.displacement = true ∨ m.modBits base = 2 := by
  unfold modBits
  split_ifs with h h'
  · left
    simpa using h
  · exact .inr (.inl ⟨rfl, h'⟩)
  · exact .inr (.inr rfl)

theorem Memory.modBits_lt (m : Memory) (base : Register) : (m.modBits base).toNat < 3 := by
  rcases m.modBits_cases base with ⟨h, _⟩ | ⟨h, _⟩ | h <;> rw [h] <;> decide

theorem Memory.modBits_ne_three (m : Memory) (base : Register) : m.modBits base ≠ 3 := by
  intro h
  have hlt := m.modBits_lt base
  rw [h] at hlt
  exact absurd hlt (by decide)

/-- A base that would mean no base always has a displacement. -/
theorem Memory.has_displacement (m : Memory) (base : Register) :
    ¬ (base.low = 5 ∧ m.modBits base = 0) := by
  rintro ⟨h5, h0⟩
  rcases m.modBits_cases base with ⟨_, _, h⟩ | ⟨h, _⟩ | h
  · exact h h5
  · exact absurd (h0.symm.trans h) (by decide)
  · exact absurd (h0.symm.trans h) (by decide)

theorem displacement?_bytes (hm : m.Fits) (base : Register) (rest : Bytes) :
    displacement? (m.modBits base) (m.displacementBytes (m.modBits base) ++ rest) =
      some (m.displacement, rest) := by
  have hread (k : ℕ) (hk : k = 1 ∧ fitsByte m.displacement = true ∨ k = 4) :
      signed? k (Bytes.littleEndian k (m.displacement % 2 ^ 32).toNat ++ rest) =
        some (m.displacement, rest) := by
    have h := signed?_append (Bytes.littleEndian k (m.displacement % 2 ^ 32).toNat) rest
    rwa [Bytes.littleEndian_length, signed_littleEndian hk hm] at h
  rcases m.modBits_cases base with ⟨h, h0, _⟩ | ⟨h, hfit⟩ | h
  · simp [h, displacement?, Memory.displacementBytes, h0]
  · rw [h]
    exact hread 1 (.inl ⟨rfl, hfit⟩)
  · rw [h]
    exact hread 4 (.inr rfl)

theorem scale_scaleBits {n k : UInt8} (h : scaleBits? n = some k) :
    k.toNat < 4 ∧ scale k = if n = 0 then 1 else n := by
  unfold scaleBits? at h
  split_ifs at h with h0 h2 h4 h8 <;> cases h
  · rcases h0 with rfl | rfl <;> decide
  all_goals subst n; decide

theorem basedOperand_eq {base : Register} (reg : UInt8) (hbase : m.base = some base) :
    basedOperand reg m = match m.index with
      | none =>
        if base.low != 4 then
          .ok (modRM (m.modBits base) reg base.low :: m.displacementBytes (m.modBits base))
        else .ok (modRM (m.modBits base) reg 4 :: modRM 0 4 base.low ::
          m.displacementBytes (m.modBits base))
      | some index =>
        match scaleBits? m.scale with
        | none => .error (.badScale m.scale)
        | some s => .ok (modRM (m.modBits base) reg 4 :: modRM s index.low base.low ::
          m.displacementBytes (m.modBits base)) := by
  unfold basedOperand
  rw [hbase]
  rfl

theorem Memory.decoded_based {base : Register} (hbase : m.base = some base)
    (hlabel : m.label = none)
    (n : ℤ) : m.decoded mode n = ⟨some base, m.index, m.readScale, m.displacement, none⟩ := by
  unfold decoded
  rw [hlabel, hbase.symm]

section Based

variable {base : Register} {rex : Rex}

theorem scaled?_based {s x : UInt8} (hm : m.Fits) (hs : s.toNat < 4) (hx : x.toNat < 8)
    (hbase : register rex.base base.low = base) (rest : Bytes) :
    scaled? rex (m.modBits base) (modRM s x base.low)
        (m.displacementBytes (m.modBits base) ++ rest) =
      some (if register rex.index x = .rsp then ⟨some base, none, 1, m.displacement, none⟩
        else ⟨some base, some (register rex.index x), scale s, m.displacement, none⟩, rest) := by
  obtain ⟨h1, h2, h3⟩ := modRM_parts hs hx (low_lt base)
  simp only [scaled?, h1, h2, h3, if_neg (m.has_displacement base), displacement?_bytes hm, hbase]
  by_cases hsp : register rex.index x = .rsp <;> simp [hsp]

/-- The operand bytes of memory with a base are read back. -/
theorem memory?_based {reg : UInt8} {bs : Bytes} (hreg : reg.toNat < 8)
    (hfault : Form.memoryFault? mode m = none) (hm : m.Fits) (hbase : m.base = some base)
    (hlabel : m.label = none) (hrb : rex.base = base.isExtended)
    (hri : rex.index = m.index.any (·.isExtended)) (hbs : basedOperand reg m = .ok bs) (n : ℤ)
    (rest : Bytes) :
    ∃ b more, bs = b :: more ∧ Decoder.mod b ≠ 3 ∧ Decoder.reg b = reg ∧
      memory? mode rex b (more ++ rest) = some (m.decoded mode n, rest) := by
  have hmod : (m.modBits base).toNat < 4 := Nat.lt_trans (m.modBits_lt base) (by decide)
  have hself : register rex.base base.low = base := by
    rw [hrb, register_low (Form.base_lt hfault hbase)]
  have hparts4 := modRM_parts hmod hreg (show (4 : UInt8).toNat < 8 by decide)
  rw [basedOperand_eq reg hbase] at hbs
  rw [Memory.decoded_based hbase hlabel, Memory.readScale]
  cases hindex : m.index with
  | none =>
    simp only [hindex] at hbs
    split_ifs at hbs with h4 <;> cases hbs
    · obtain ⟨h1, h2, h3⟩ := modRM_parts hmod hreg (low_lt base)
      refine ⟨_, _, rfl, by rw [h1]; exact m.modBits_ne_three base, h2, ?_⟩
      have h4' : base.low ≠ 4 := by simpa using h4
      simp only [memory?, h1, h3, if_neg h4', if_neg (m.has_displacement base),
        displacement?_bytes hm, hself]
      rfl
    · obtain ⟨h1, h2, h3⟩ := hparts4
      refine ⟨_, _, rfl, by rw [h1]; exact m.modBits_ne_three base, h2, ?_⟩
      have hri' : rex.index = false := by simp [hri, hindex]
      simp only [memory?, h1, h3, ↓reduceIte, List.cons_append, hri',
        scaled?_based hm (show (0 : UInt8).toNat < 4 by decide)
          (show (4 : UInt8).toNat < 8 by decide) hself]
      rfl
  | some index =>
    obtain ⟨hi16, hisp⟩ := Form.index_lt hfault hindex
    simp only [hindex] at hbs
    cases hsc : scaleBits? m.scale with
    | none => simp [hsc] at hbs
    | some k =>
      simp only [hsc, Except.ok.injEq] at hbs
      subst hbs
      obtain ⟨hk, hscale⟩ := scale_scaleBits hsc
      obtain ⟨h1, h2, h3⟩ := hparts4
      refine ⟨_, _, rfl, by rw [h1]; exact m.modBits_ne_three base, h2, ?_⟩
      have hindexself : register rex.index index.low = index := by
        rw [hri, hindex, Option.any_some, register_low hi16]
      simp only [memory?, h1, h3, ↓reduceIte, List.cons_append,
        scaled?_based hm hk (low_lt index) hself, hindexself, if_neg hisp, hscale,
        Option.isNone_some, Bool.false_eq_true, false_or]

end Based

/-- The operand bytes of memory with a label are read back, whatever the field holds. -/
theorem memory?_label {rex : Rex} {l : ℤ} {reg : UInt8} {bs field : Bytes} {patch : Assembly.Patch}
    {trailing : ℕ} (hmode : mode = .bits32 ∨ mode = .bits64) (hreg : reg.toNat < 8)
    (hfault : Form.memoryFault? mode m = none) (hlabel : m.label = some l)
    (hri : rex.index = m.index.any (·.isExtended))
    (hbs : labelOperand mode reg m trailing = .ok (bs, patch)) (hfield : field.length = 4)
    (rest : Bytes) :
    ∃ b more, bs = b :: more ∧ Decoder.mod b ≠ 3 ∧ Decoder.reg b = reg ∧
      memory? mode rex b (more ++ (field ++ rest)) = some (m.decoded mode field.signed, rest) := by
  have hread : signed? 4 (field ++ rest) = some (field.signed, rest) := by
    rw [← hfield]
    exact signed?_append field rest
  have h0 : (0 : UInt8).toNat < 4 := by decide
  have hparts5 := modRM_parts h0 hreg (show (5 : UInt8).toNat < 8 by decide)
  unfold labelOperand at hbs
  split_ifs at hbs with hbase h64 hidx
  · cases hbs
    obtain ⟨h1, h2, h3⟩ := hparts5
    refine ⟨_, _, rfl, by rw [h1]; decide, h2, ?_⟩
    subst h64
    simp [memory?, h1, h3, hread, Memory.decoded, hlabel]
  · have h32 : mode = .bits32 := hmode.resolve_right h64
    subst h32
    cases hindex : m.index with
    | none =>
      simp only [hindex] at hbs
      cases hbs
      obtain ⟨h1, h2, h3⟩ := hparts5
      refine ⟨_, _, rfl, by rw [h1]; decide, h2, ?_⟩
      simp [memory?, h1, h3, hread, Memory.decoded, hlabel, hindex, Memory.readScale]
    | some index =>
      obtain ⟨hi16, hisp⟩ := Form.index_lt hfault hindex
      simp only [hindex] at hbs
      cases hsc : scaleBits? m.scale with
      | none => simp [hsc] at hbs
      | some k =>
        simp only [hsc, Except.ok.injEq, Prod.mk.injEq] at hbs
        obtain ⟨rfl, rfl⟩ := hbs
        obtain ⟨hk, hscale⟩ := scale_scaleBits hsc
        obtain ⟨h1, h2, h3⟩ := modRM_parts h0 hreg (show (4 : UInt8).toNat < 8 by decide)
        obtain ⟨k1, k2, k3⟩ := modRM_parts hk (low_lt index) (show (5 : UInt8).toNat < 8 by decide)
        have hself : register rex.index index.low = index := by
          rw [hri, hindex, Option.any_some, register_low hi16]
        refine ⟨_, _, rfl, by rw [h1]; decide, h2, ?_⟩
        simp [memory?, scaled?, h1, h3, k1, k2, k3, hself, hisp, hread, Memory.decoded, hlabel,
          hindex, Memory.readScale, hscale]

def Form.fieldRegister (f : Form) : Register := register f.rex.reg f.field.low

theorem Form.fieldRegister_eq {r : Register} (h : f.Encodable mode) (hr : f.field = .register r) :
    f.fieldRegister = r := by
  have hlt := number_lt_of_existsIn (h.registers r (by simp [registers, hr]))
  simp only [fieldRegister, rex, hr]
  exact register_low hlt

/-- The operand bytes of a form are read back. -/
theorem Form.operands?_shape (hmode : mode = .bits32 ∨ mode = .bits64) (h : f.Encodable mode)
    (hfits : ∀ m ∈ f.operand.memory?, m.Fits) (hs : f.operandShape mode = .ok s) {field : Bytes}
    (hfield : field.length = s.room) (rest : Bytes) :
    operands? mode f.rex (s.head ++ (field ++ rest)) =
      some (f.fieldRegister, f.field.low, f.operand.decoded mode field.signed, rest) := by
  have hreg := f.field.low_lt
  have hri (m : Memory) (hop : f.operand = .memory m) :
      f.rex.index = m.index.any (·.isExtended) := by simp [rex, hop]
  have hmem (m : Memory) (hop : f.operand = .memory m) :
      memoryFault? mode m = none ∧ m.Fits :=
    ⟨h.memory m (by simp [hop, Operand.memory?]), hfits m (by simp [hop, Operand.memory?])⟩
  rcases f.operandShape_cases hs with ⟨r, hop, rfl⟩ | ⟨m, l, bs, patch, hop, hl, hbs, rfl⟩ |
    ⟨m, bs, hop, hl, hbs, rfl⟩
  · have hr := number_lt_of_existsIn (h.registers r (by simp [registers, hop]))
    obtain ⟨h1, h2, h3⟩ := modRM_parts (show (3 : UInt8).toNat < 4 by decide) hreg (low_lt r)
    obtain rfl : field = [] := List.eq_nil_of_length_eq_zero hfield
    have hbase : f.rex.base = r.isExtended := by simp [rex, hop]
    simp [operands?, h1, h2, h3, hbase, register_low hr, fieldRegister, hop, Operand.decoded]
  · have hw : field.length = 4 := hfield.trans (Emitter.labelOperand_width hbs)
    obtain ⟨b, more, rfl, h3, hregb, hmemory⟩ :=
      memory?_label hmode hreg (hmem m hop).1 hl (hri m hop) hbs hw rest
    simp [operands?, h3, hregb, hmemory, fieldRegister, hop, Operand.decoded]
  · obtain rfl : field = [] := List.eq_nil_of_length_eq_zero hfield
    obtain ⟨base, hbase⟩ : ∃ base, m.base = some base := by
      cases hbase : m.base with
      | none => simp [basedOperand, hbase] at hbs
      | some base => exact ⟨base, rfl⟩
    have hrb : f.rex.base = base.isExtended := by simp [rex, hop, hbase]
    obtain ⟨b, more, rfl, h3, hregb, hmemory⟩ :=
      memory?_based hreg (hmem m hop).1 (hmem m hop).2 hbase hl hrb (hri m hop) hbs
        (Bytes.signed []) rest
    simp [operands?, h3, hregb, hmemory, fieldRegister, hop, Operand.decoded]

end X86
end PortCodec
