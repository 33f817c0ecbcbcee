import PortCodec.Proofs.Linking.Edited
import PortCodec.Proofs.Linking.Linkable

/-! Code at another address. Linking writes into any buffer that is long enough, distances inside
code are the same wherever it stands, and only the addresses of eight bytes move with it. -/

namespace PortCodec.X86

open Assembly

variable {mode : Mode} {f : Form} {s : Shape} {i : Instruction} {l : ℤ}

theorem Form.shape_ne_abs64 (h : f.shape mode = .ok s) : s.field ≠ some (.abs64, l) := by
  obtain ⟨-, s', hs', rfl⟩ := f.shape_cases h
  rcases f.operandShape_cases hs' with ⟨r, -, rfl⟩ | ⟨m, l, bs, patch, -, -, hbs, rfl⟩ |
    ⟨m, bs, -, -, -, rfl⟩
  · simp
  · rintro ⟨⟩
    obtain ⟨-, ⟨-, -, h⟩ | ⟨-, h⟩⟩ := labelOperand_patch hbs <;> cases h
  · simp

theorem shapeWith_ne_abs64 {imm : Except OperandFault Bytes} {f : Bytes → Form}
    (h : shapeWith mode imm f = .ok s) : s.field ≠ some (.abs64, l) := by
  obtain ⟨bs, -, hs⟩ := shapeWith_cases h
  exact Form.shape_ne_abs64 hs

/-- Only the addresses among the instructions take eight bytes. -/
theorem Instruction.shape_abs64 (h : i.shape mode = .ok s) (hf : s.field = some (.abs64, l)) :
    i = .address l := by
  obtain ⟨hlabel, -⟩ := shape_field h
  rw [hf] at hlabel
  cases i with
  | address k => exact congrArg _ (Option.some.inj hlabel.symm)
  | mov | load | loadZero | loadSign | lea | jmpMemory | alu | test | inc | dec | neg | div | shl
  | shr => exact absurd hf (Form.shape_ne_abs64 h)
  | testImmediate => exact absurd hf (shapeWith_ne_abs64 h)
  | imul | aluImmediate =>
    simp only [shape] at h
    split_ifs at h <;>
      first | exact absurd hf (Form.shape_ne_abs64 h) | exact absurd hf (shapeWith_ne_abs64 h)
  | movImmediate w dst v =>
    cases dst with
    | memory m => exact absurd hf (shapeWith_ne_abs64 h)
    | register r => cases hlabel
  | push | pop | ret => cases hlabel
  | jmp | jmpShort | jcc | jccShort | call =>
    cases h
    cases hf

end PortCodec.X86

namespace PortCodec.Program

open X86 Assembly

variable {mode : Mode} {a : Assembler} {base base' : UInt64} {items : List Item}

section Buffers

def linkedFrom (mode : Mode) (a : Assembler) (base : UInt64) (o : ℕ) (items : List Item) : Bytes :=
  (placed mode o items).flatMap (linkedAt a base)

theorem linkedFrom_append (o : ℕ) (xs ys : List Item) : linkedFrom mode a base o (xs ++ ys) =
    linkedFrom mode a base o xs ++ linkedFrom mode a base (behind mode o xs) ys := by
  simp only [linkedFrom, placed_append, List.flatMap_append]

/-- A buffer that is long enough holds the image afterwards, and behind it what it held before. -/
theorem flush_eq (h : Carries mode items a) {buffer : Array UInt8} (hb : a.size ≤ buffer.size)
    (hf : ∀ p ∈ placed mode 0 items, (fieldAt? a base p).isSome) {globals : List (String × UInt64)}
    (hg : a.globalAddresses base a.globals = .ok globals) :
    ∃ image, a.flush buffer base = (image, .ok globals) ∧
      image.toList = linkedFrom mode a base 0 items ++ buffer.toList.drop a.size := by
  have hshort : ¬ buffer.size < a.size := Nat.not_lt.2 hb
  have hcopied := Assembler.toList_copied hshort
  rw [h.code] at hcopied
  obtain ⟨hnone, himage⟩ :=
    @patchFields_placed mode a base _ [] (buffer.toList.drop a.size) items hcopied
  rw [List.length_nil, ← h.relocations, ← h.code] at hnone himage
  exact ⟨_, Assembler.flush_eq_ok_iff.2 ⟨hb, Prod.ext rfl (hnone.2 hf), hg⟩, himage hf⟩

end Buffers

section Distances

/-- The distance of two places does not depend on where the code is. -/
theorem signed64_sub (base o k : ℕ) (j : ℤ) :
    signed64 (((base + o) % 2 ^ 64 : ℕ) - ((base + k) % 2 ^ 64 : ℕ) - j) =
      signed64 (o - k - j) := by
  simp only [signed64, Int.bmod_def]
  split <;> split <;> omega

def isDistance : Patch → Bool
  | .rel8 | .rel32 _ => true
  | .abs32 | .abs64 => false

theorem field_of_isDistance {patch : Patch} (h : isDistance patch = true) (o k : ℕ) :
    patch.field (base + UInt64.ofNat o) (base + UInt64.ofNat k) =
      patch.field (base' + UInt64.ofNat o) (base' + UInt64.ofNat k) := by
  have hto (b : UInt64) (n : ℕ) : (b + UInt64.ofNat n).toNat = (b.toNat + n) % 2 ^ 64 := by simp
  cases patch with
  | rel8 =>
    have hd (b : UInt64) := signed64_sub b.toNat o k 0
    simp only [sub_zero] at hd
    simp only [Patch.field, hto, hd]
  | rel32 j => simp only [Patch.field, hto, signed64_sub]
  | abs32 => cases h
  | abs64 => cases h

/-- A shape whose field is a distance inside the code is linked alike everywhere. -/
theorem linkedAt_of_isDistance {p : ℕ × X86.Shape}
    (h : ∀ patch l, p.2.field = some (patch, l) →
      isDistance patch = true ∧ ∃ o, a.binding? l = some (.inside o)) :
    linkedAt a base p = linkedAt a base' p := by
  have hfield : fieldAt? a base p = fieldAt? a base' p := by
    unfold fieldAt?
    cases hf : p.2.field with
    | none => rfl
    | some x =>
      obtain ⟨patch, l⟩ := x
      obtain ⟨hd, o, ho⟩ := h patch l hf
      simp only [resolve_inside ho, Except.toOption, Option.bind_eq_bind, Option.bind_some]
      rw [field_of_isDistance hd]
  rw [linkedAt, hfield, linkedAt]

/-- Code of 64-bit mode that holds no addresses is linked alike everywhere. -/
theorem linkedFrom_of_noAddress {o : ℕ} (hi : ∀ i ∈ items, i.Encodable .bits64)
    (hb : ∀ p ∈ placed .bits64 o items, ∀ patch l, p.2.field = some (patch, l) →
      ∃ k, a.binding? l = some (.inside k))
    (hno : ∀ l, .code (.address l) ∉ items) :
    linkedFrom .bits64 a base o items = linkedFrom .bits64 a base' o items := by
  refine List.flatMap_congr fun p hp => linkedAt_of_isDistance fun patch l hf =>
    ⟨?_, hb p hp patch l hf⟩
  obtain ⟨i, hmem, hpi, -, -⟩ := mem_placed hp
  obtain ⟨c, s, rfl, hs, -, hsf⟩ := shape_field_of_mem (hi i hmem) (hpi ▸ hf)
  -- four-byte addresses are for 32-bit mode, those of eight bytes are excluded
  cases patch with
  | rel8 => rfl
  | rel32 k => rfl
  | abs32 => exact absurd rfl (Instruction.shape_counts hs _ _ hsf)
  | abs64 =>
    obtain rfl := Instruction.shape_abs64 hs hsf
    exact absurd hmem (hno l)

end Distances

section Addresses

def addresses (a : Assembler) (base : UInt64) (ls : List ℤ) : Bytes :=
  ls.flatMap fun l => Bytes.littleEndian 8 (base + UInt64.ofNat (codeOffset a l)).toNat

theorem length_addresses (ls : List ℤ) : (addresses a base ls).length = 8 * ls.length := by
  simp [addresses, Nat.mul_comm]

theorem linkedFrom_addresses {ls : List ℤ} (h : ∀ l ∈ ls, ∃ o, a.binding? l = some (.inside o))
    (base : UInt64) (o : ℕ) :
    linkedFrom .bits64 a base o (ls.map fun l => .code (.address l)) = addresses a base ls := by
  induction ls generalizing o with
  | nil => rfl
  | cons l ls ih =>
    have hhead : linkedAt a base (o, (Item.code (.address l)).shape .bits64 o) =
        Bytes.littleEndian 8 (base + UInt64.ofNat (codeOffset a l)).toNat := by
      have hl := resolve_codeOffset (h l (by simp)) base
      simp [linkedAt, fieldAt?, Item.shape, Instruction.shape, Except.toOption, hl, Patch.field,
        X86.Shape.fill]
    rw [List.map_cons, addresses, List.flatMap_cons, ← hhead, ← addresses,
      ← ih (fun k hk => h k (by simp [hk])) (o + ((Item.code (.address l)).shape .bits64 o).size)]
    rfl

def slotAt (image : Array UInt8) (i : ℕ) : UInt64 :=
  UInt64.ofNat (Bytes.toNatLE ((image.toList.drop i).take 8))

theorem slotAt_addresses {image : Array UInt8} {pre post : Bytes} {ls : List ℤ}
    (h : image.toList = pre ++ (addresses a base ls ++ post)) {k : ℕ} {l : ℤ}
    (hk : ls[k]? = some l) :
    slotAt image (pre.length + 8 * k) = base + UInt64.ofNat (codeOffset a l) := by
  induction k generalizing pre ls with
  | zero =>
    obtain ⟨rest, rfl⟩ : ∃ rest, ls = l :: rest := by
      cases ls with
      | nil => cases hk
      | cons x rest => exact ⟨rest, by simp_all⟩
    set x := base + UInt64.ofNat (codeOffset a l) with hx
    have hword : (image.toList.drop (pre.length + 8 * 0)).take 8 =
        Bytes.littleEndian 8 x.toNat := by
      rw [h, Nat.mul_zero, Nat.add_zero, List.drop_left, addresses, List.flatMap_cons,
        List.append_assoc]
      exact List.take_left' (Bytes.littleEndian_length ..)
    have hlt : x.toNat < 256 ^ 8 := x.toNat_lt.trans_eq (by norm_num)
    rw [slotAt, hword, Bytes.toNatLE_littleEndian, Nat.mod_eq_of_lt hlt, UInt64.ofNat_toNat]
  | succ k ih =>
    cases ls with
    | nil => cases hk
    | cons x rest =>
      have hmoved :=
        @ih (pre ++ Bytes.littleEndian 8 (base + UInt64.ofNat (codeOffset a x)).toNat) rest
        (by rw [h]; simp [addresses]) (by simpa using hk)
      rw [List.length_append, Bytes.littleEndian_length] at hmoved
      rw [← hmoved]
      congr 1
      omega

end Addresses

end PortCodec.Program
