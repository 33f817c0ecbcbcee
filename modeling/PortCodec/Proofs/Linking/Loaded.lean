import PortCodec.Proofs.Linking.Linked
import PortCodec.Proofs.Machine.Fetch

/-! Linked code in memory. Loaded code lies at its address item by item: every instruction stands
there in its bytes, its field leads to where its label is, and every mark is where it should be. -/

namespace PortCodec.X86

open Assembly

variable {g : Guard} {memory : ℕ → UInt8} {mode : Mode} {f : Form} {s : Shape} {i : Instruction}

section Holds

theorem Guard.Holds.mod {a : ℕ} {bs : Bytes} (h : g.Holds memory a bs) :
    g.Holds memory (a % g.space) bs := by
  intro k hk
  rw [Nat.mod_add_mod]
  exact h k hk

theorem Guard.Holds.append {a : ℕ} {xs ys : Bytes} (h : g.Holds memory a (xs ++ ys)) :
    g.Holds memory a xs ∧ g.Holds memory (a + xs.length) ys := by
  refine ⟨fun k hk => ?_, fun k hk => ?_⟩
  · have := h k (by rw [List.length_append]; omega)
    simpa [List.getElem_append_left hk] using this
  · have := h (xs.length + k) (by rw [List.length_append]; omega)
    simpa [← Nat.add_assoc] using this

end Holds

section Trailing

/-- A distance counts from the end of the instruction; addresses of four bytes are for 32-bit
mode. -/
def Shape.Counts (mode : Mode) (s : Shape) : Prop :=
  ∀ patch l, s.field = some (patch, l) → match patch with
    | .rel8 => s.tail = []
    | .rel32 k => k = s.tail.length
    | .abs32 => mode ≠ .bits64
    | .abs64 => True

theorem Form.shape_counts (h : f.shape mode = .ok s) : s.Counts mode := by
  obtain ⟨-, s', hs', rfl⟩ := f.shape_cases h
  rcases f.operandShape_cases hs' with ⟨r, -, rfl⟩ | ⟨m, l, bs, patch, -, -, hbs, rfl⟩ |
    ⟨m, bs, -, -, -, rfl⟩
  · rintro _ _ ⟨⟩
  · rintro _ _ ⟨⟩
    obtain ⟨-, ⟨-, -, rfl⟩ | ⟨h32, rfl⟩⟩ := labelOperand_patch hbs
    · rfl
    · exact h32
  · rintro _ _ ⟨⟩

theorem shapeWith_counts {imm : Except OperandFault Bytes} {f : Bytes → Form}
    (h : shapeWith mode imm f = .ok s) : s.Counts mode := by
  obtain ⟨bs, -, hs⟩ := shapeWith_cases h
  exact Form.shape_counts hs

theorem shortShape_counts {w : Width} {opcode : UInt8} {r : Register} {more : Bytes}
    (h : shortShape mode w opcode r more = .ok s) : s.Counts mode := by
  obtain ⟨-, rfl⟩ := shortShape_cases h
  rintro _ _ ⟨⟩

theorem Instruction.shape_counts (h : i.shape mode = .ok s) : s.Counts mode := by
  cases i with
  | mov | load | loadZero | loadSign | alu | test | inc | dec | neg | div | shl | shr | lea
  | jmpMemory => exact Form.shape_counts h
  | testImmediate => exact shapeWith_counts h
  | imul | aluImmediate =>
    simp only [shape] at h
    split_ifs at h <;> first | exact Form.shape_counts h | exact shapeWith_counts h
  | movImmediate w dst v =>
    cases dst with
    | memory m => exact shapeWith_counts h
    | register r =>
      simp only [shape] at h
      split_ifs at h
      · exact shapeWith_counts h
      · split at h
        · cases h
        · exact shortShape_counts h
  | push | pop => exact shortShape_counts h
  | ret =>
    cases h
    rintro _ _ ⟨⟩
  | jmp | jmpShort | jcc | jccShort | call =>
    cases h
    rintro _ _ ⟨⟩
    rfl
  | address l =>
    cases h
    rintro _ _ ⟨⟩
    split_ifs with h64
    · trivial
    · exact h64

end Trailing

section Leading

theorem signed_littleEndian_eq (k n : ℕ) :
    (Bytes.littleEndian k n).signed = (n : ℤ).bmod (Nat.pow 256 k) := by
  unfold Bytes.signed
  rw [Bytes.toNatLE_littleEndian, Bytes.littleEndian_length, ← Int.emod_bmod (n : ℤ)]
  simp

theorem Guard.space_cases (g : Guard) : g.space = 2 ^ 32 ∨ g.space = 2 ^ 64 := by
  have hdword : Width.span .dword = 2 ^ 32 := by decide
  have hqword : Width.span .qword = 2 ^ 64 := by decide
  unfold Guard.space
  rcases g.mode with _ | _ | _
  · exact .inl hdword
  · exact .inr hqword
  · exact .inl hdword

/-- A distance leads from behind the field to the target. -/
theorem leads_of_distance {d : ℤ} {target base l : ℕ} (o : ℕ)
    (hd : d = signed64 (target - ((base + o) % 2 ^ 64 : ℕ) - (l - o))) :
    target % g.space = ((((base + l) % g.space : ℕ) + d) % g.space).toNat := by
  subst hd
  rcases g.space_cases with h | h <;> rw [h] <;> simp only [signed64, Int.bmod_def] <;> split <;>
    omega

/-- What a patch writes leads to its target. -/
theorem leads_of_field {patch : Patch} {target base : UInt64} {bs : Bytes} {o l : ℕ}
    (hpatch : match patch with
      | .rel8 => l = o
      | .rel32 k => (l : ℤ) = o + k
      | .abs32 => g.space = 2 ^ 32
      | .abs64 => True)
    (h : patch.field target (base + UInt64.ofNat o) = .ok bs) :
    g.Leads ((base.toNat + l) % g.space) bs.signed (target.toNat % g.space) patch := by
  have hsource : (base + UInt64.ofNat o).toNat = (base.toNat + o) % 2 ^ 64 := by simp
  unfold Patch.field at h
  rw [hsource] at h
  cases patch with
  | rel8 =>
    simp only at h hpatch
    split_ifs at h with hfit
    cases h
    refine leads_of_distance o (Eq.trans ?_ (show signed64 (target.toNat -
      ((base.toNat + o) % 2 ^ 64 : ℕ)) = _ by rw [hpatch, sub_self, sub_zero]))
    rw [signed_littleEndian_eq]
    simp only [Nat.pow_eq, Int.bmod_def]
    split <;> omega
  | rel32 k =>
    simp only at h hpatch
    split_ifs at h with hfit
    cases h
    refine leads_of_distance o (Eq.trans ?_ (show signed64 (target.toNat -
      ((base.toNat + o) % 2 ^ 64 : ℕ) - k) = _ by rw [hpatch, add_sub_cancel_left]))
    rw [signed_littleEndian_eq]
    simp only [Nat.pow_eq, Int.bmod_def]
    split <;> omega
  | abs32 =>
    simp only at h hpatch
    split_ifs at h with hfit
    cases h
    simp only [Guard.Leads, signed_littleEndian_eq, hpatch, Nat.pow_eq, Int.bmod_def]
    split <;> omega
  | abs64 =>
    cases h
    simp only [Guard.Leads, signed_littleEndian_eq, Nat.pow_eq, Int.bmod_def]
    rcases g.space_cases with h | h <;> rw [h] <;> split <;> omega

end Leading

/-- Code that stands in memory, with the addresses of its labels. -/
structure Site where
  guard : Guard
  memory : ℕ → UInt8
  place : ℤ → ℕ

end PortCodec.X86

namespace PortCodec.Program

open X86 Assembly

/-- Items lie in memory from one address to another. -/
inductive Lies (c : Site) : ℕ → List Item → ℕ → Prop
  | nil (a : ℕ) : Lies c a [] a
  | code {i : Instruction} {s : X86.Shape} {field : Bytes} {rest : List Item} {a b : ℕ}
    (hs : i.shape c.guard.mode = .ok s) (hfield : field.length = s.room)
    (hbytes : c.guard.Holds c.memory a (s.fill field))
    (hr : c.guard.Resolves c.place ((a + s.size) % c.guard.space) field.signed s)
    (h : Lies c ((a + s.size) % c.guard.space) rest b) : Lies c a (.code i :: rest) b
  | mark {m : Mark} {rest : List Item} {a b : ℕ} (hm : c.place m.label = a)
    (h : Lies c a rest b) : Lies c a (.mark m :: rest) b
  | align {n k : ℕ} {rest : List Item} {a b : ℕ}
    (h : Lies c ((a + k) % c.guard.space) rest b) : Lies c a (.align n :: rest) b

theorem Lies.append {c : Site} {a b : ℕ} {xs ys : List Item} (h : Lies c a (xs ++ ys) b) :
    ∃ k, Lies c a xs k ∧ Lies c k ys b := by
  induction xs generalizing a with
  | nil => exact ⟨a, .nil a, h⟩
  | cons i rest ih =>
    cases h with
    | code hs hfield hbytes hr h =>
      obtain ⟨k, h1, h2⟩ := ih h
      exact ⟨k, .code hs hfield hbytes hr h1, h2⟩
    | mark hm h =>
      obtain ⟨k, h1, h2⟩ := ih h
      exact ⟨k, .mark hm h1, h2⟩
    | align h =>
      obtain ⟨k, h1, h2⟩ := ih h
      exact ⟨k, .align h1, h2⟩

variable {a : Assembler} {base : UInt64} {items : List Item} {g : Guard} {memory : ℕ → UInt8}

def placeOf (a : Assembler) (base : UInt64) (space : ℕ) (l : ℤ) : ℕ :=
  match a.resolve l base with
  | .ok target => target.toNat % space
  | .error _ => 0

theorem resolve_inside {l : ℤ} {o : ℕ} (h : a.binding? l = some (.inside o)) :
    a.resolve l base = .ok (base + UInt64.ofNat o) := by
  unfold Assembler.resolve
  rw [Assembler.chain]
  simp only [h]
  exact congrArg Except.ok (UInt64.add_zero _)

theorem placeOf_inside {l : ℤ} {o : ℕ} (h : a.binding? l = some (.inside o)) :
    placeOf a base g.space l = (base.toNat + o) % g.space := by
  have hto : (base + UInt64.ofNat o).toNat = (base.toNat + o) % 2 ^ 64 := by simp
  simp only [placeOf, resolve_inside h, hto]
  rcases g.space_cases with h | h <;> rw [h]
  · exact Nat.mod_mod_of_dvd _ ⟨2 ^ 32, rfl⟩
  · exact Nat.mod_mod _ _

theorem resolves_fieldAt {s : X86.Shape} {o : ℕ} {bs : Bytes}
    (hmode : g.mode = .bits32 ∨ g.mode = .bits64)
    (hs : s.Counts g.mode) (hf : fieldAt? a base (o, s) = some bs) :
    g.Resolves (placeOf a base g.space) ((base.toNat + o + s.size) % g.space) bs.signed s := by
  intro patch l hpl
  obtain ⟨-, h⟩ := fieldAt?_some hf
  obtain ⟨target, ht, hfield⟩ := h patch l hpl
  have hcount := hs patch l hpl
  have hroom : s.room = patch.width := by simp [X86.Shape.room, hpl]
  simp only [placeOf, ht]
  rw [Nat.add_assoc]
  refine leads_of_field ?_ hfield
  cases patch with
  | rel8 => simp only at hcount; simp [X86.Shape.size, hroom, hcount, Nat.add_assoc]
  | rel32 k => simp only at hcount; simp [X86.Shape.size, hroom, hcount]; ring
  | abs32 =>
    have h32 := hmode.resolve_right hcount
    simp only [Guard.space, h32]
    decide
  | abs64 => trivial

/-- Code that was linked for an address and stands there lies there item by item. -/
theorem lies_of_linked {o : ℕ} (hmode : g.mode = .bits32 ∨ g.mode = .bits64)
    (hi : ∀ i ∈ items, i.Encodable g.mode)
    (hm : ∀ p ∈ bound g.mode o items, a.binding? p.1.label = some (.inside p.2))
    (hf : ∀ p ∈ placed g.mode o items, (fieldAt? a base p).isSome)
    (hbytes : g.Holds memory (base.toNat + o)
      ((placed g.mode o items).flatMap (linkedAt a base))) :
    Lies ⟨g, memory, placeOf a base g.space⟩ ((base.toNat + o) % g.space) items
      ((base.toNat + behind g.mode o items) % g.space) := by
  induction items generalizing o with
  | nil => exact .nil _
  | cons i rest ih =>
    obtain ⟨bs, hbs⟩ := Option.isSome_iff_exists.1 (hf (o, i.shape g.mode o) (by simp [placed]))
    have hlen : (linkedAt a base (o, i.shape g.mode o)).length = (i.shape g.mode o).size := by
      simp [linkedAt, hbs, X86.Shape.length_fill _ (fieldAt?_some hbs).1]
    simp only [placed, List.flatMap_cons] at hbytes
    obtain ⟨hhere, hrest⟩ := hbytes.append
    rw [hlen, Nat.add_assoc] at hrest
    have hmarks : ∀ p ∈ bound g.mode (o + (i.shape g.mode o).size) rest,
        a.binding? p.1.label = some (.inside p.2) := fun p hp => hm p (by
      rw [← List.singleton_append, bound_append]
      exact List.mem_append_right _ hp)
    have hnext := ih (fun j hj => hi j (List.mem_cons_of_mem _ hj)) hmarks
      (fun p hp => hf p (by simp [placed, hp])) hrest
    cases i with
    | code i =>
      obtain ⟨⟨s, hs⟩, -⟩ := hi _ (List.mem_cons_self ..)
      have hshape : (Item.code i).shape g.mode o = s := by simp [Item.shape, hs, Except.toOption]
      rw [hshape] at hbs hhere hnext
      refine .code hs (fieldAt?_some hbs).1 ?_ ?_ ?_
      · simpa [linkedAt, hbs] using hhere.mod
      · simpa only [Nat.mod_add_mod] using
          resolves_fieldAt hmode (Instruction.shape_counts hs) hbs
      · simpa only [Nat.mod_add_mod, Nat.add_assoc, behind, hshape] using hnext
    | mark m =>
      refine .mark ?_ (by simpa [Item.shape, X86.Shape.size, X86.Shape.room, behind] using hnext)
      exact placeOf_inside (hm (m, o) (by simp [bound]))
    | align n =>
      refine .align (k := ((Item.align n).shape g.mode o).size) ?_
      simpa only [Nat.mod_add_mod, Nat.add_assoc, behind] using hnext

end PortCodec.Program
