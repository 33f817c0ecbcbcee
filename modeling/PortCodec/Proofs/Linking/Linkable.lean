import PortCodec.Proofs.Linking.Loaded

/-! When code can be linked. Short jumps have to stay near their marks, the other fields only need a
label that is bound; both pass from pieces of code to the code they make up. -/

namespace PortCodec.X86

open Assembly

def Instruction.label? : Instruction → Option ℤ
  | .jmp l | .jmpShort l | .jcc _ l | .jccShort _ l | .call l | .address l => some l
  | i => i.memory?.bind (·.label)

def Instruction.isShort : Instruction → Bool
  | .jmpShort _ | .jccShort .. => true
  | _ => false

variable {mode : Mode} {f : Form} {s : Shape} {i : Instruction}

/-- The field of a shape is for a label, and wide. -/
def Shape.Names (s : Shape) (l : Option ℤ) : Prop :=
  s.field.map (·.2) = l ∧ ∀ k, s.field ≠ some (.rel8, k)

theorem Form.shape_names (h : f.shape mode = .ok s) :
    s.Names (f.operand.memory?.bind (·.label)) := by
  obtain ⟨-, s', hs', rfl⟩ := f.shape_cases h
  rcases f.operandShape_cases hs' with ⟨r, hop, rfl⟩ | ⟨m, l, bs, patch, hop, hl, hbs, rfl⟩ |
    ⟨m, bs, hop, hl, -, rfl⟩
  · exact ⟨by simp [hop, Operand.memory?], by simp⟩
  · refine ⟨by simp [hop, Operand.memory?, hl], ?_⟩
    rintro k ⟨⟩
    obtain ⟨-, ⟨-, -, h⟩ | ⟨-, h⟩⟩ := labelOperand_patch hbs <;> cases h
  · exact ⟨by simp [hop, Operand.memory?, hl], by simp⟩

theorem shapeWith_names {imm : Except OperandFault Bytes} {f : Bytes → Form} {x : Operand}
    (h : shapeWith mode imm f = .ok s) (hf : ∀ bs, (f bs).operand = x) :
    s.Names (x.memory?.bind (·.label)) := by
  obtain ⟨bs, -, hs⟩ := shapeWith_cases h
  exact hf bs ▸ Form.shape_names hs

theorem shortShape_names {w : Width} {opcode : UInt8} {r : Register} {more : Bytes}
    (h : shortShape mode w opcode r more = .ok s) : s.Names none := by
  obtain ⟨-, rfl⟩ := shortShape_cases h
  exact ⟨rfl, by simp⟩

/-- What the field of an instruction is for. -/
theorem Instruction.shape_field (h : i.shape mode = .ok s) :
    s.field.map (·.2) = i.label? ∧ (i.isShort = false → ∀ l, s.field ≠ some (.rel8, l)) := by
  have hlong {x : Option ℤ} (hn : s.Names x) (hx : x = i.label?) :
      s.field.map (·.2) = i.label? ∧ (i.isShort = false → ∀ l, s.field ≠ some (.rel8, l)) :=
    ⟨hn.1.trans hx, fun _ => hn.2⟩
  cases i with
  | mov | load | loadZero | loadSign | lea | jmpMemory | alu | test | inc | dec | neg | div | shl
  | shr => exact hlong (Form.shape_names h) rfl
  | testImmediate w a v => exact hlong (shapeWith_names h fun _ => rfl) rfl
  | imul w dst src v =>
    simp only [shape] at h
    split_ifs at h
    · exact hlong (Form.shape_names h) rfl
    · exact hlong (shapeWith_names h fun _ => rfl) rfl
  | aluImmediate op w dst v =>
    simp only [shape] at h
    split_ifs at h
    · exact hlong (shapeWith_names h fun _ => rfl) rfl
    · exact hlong (Form.shape_names h) rfl
    · exact hlong (shapeWith_names h fun _ => rfl) rfl
  | movImmediate w dst v =>
    cases dst with
    | memory m => exact hlong (shapeWith_names h fun _ => rfl) rfl
    | register r =>
      simp only [shape] at h
      split_ifs at h
      · exact hlong (shapeWith_names h fun _ => rfl) rfl
      · split at h
        · cases h
        · exact hlong (shortShape_names h) rfl
  | push | pop => exact hlong (shortShape_names h) rfl
  | ret => cases h; exact ⟨rfl, by simp⟩
  | jmpShort | jccShort => cases h; exact ⟨rfl, by simp [isShort]⟩
  | jmp | jcc | call => cases h; exact ⟨rfl, by simp⟩
  | address l =>
    cases h
    refine ⟨rfl, fun _ k hk => ?_⟩
    split_ifs at hk <;> simp at hk

end PortCodec.X86

namespace PortCodec.Program

open X86 Assembly

variable {mode : Mode} {outer : List Mark}

/-- Every short jump lands within reach, at a mark of the same code. -/
def Near (mode : Mode) (items : List Item) : Prop :=
  ∀ o, ∀ p ∈ placed mode o items, ∀ l, p.2.field = some (.rel8, l) →
    ∃ q ∈ bound mode o items, q.1.label = l ∧ q.2 ≤ p.1 + p.2.size + 127 ∧
      p.1 + p.2.size ≤ q.2 + 128

theorem Near.append {xs ys : List Item} (hx : Near mode xs) (hy : Near mode ys) :
    Near mode (xs ++ ys) := by
  intro o p hp l hl
  rw [placed_append, List.mem_append] at hp
  rw [bound_append]
  rcases hp with hp | hp
  · obtain ⟨q, hq, h⟩ := hx o p hp l hl
    exact ⟨q, List.mem_append_left _ hq, h⟩
  · obtain ⟨q, hq, h⟩ := hy _ p hp l hl
    exact ⟨q, List.mem_append_right _ hq, h⟩

/-- Code whose fields can be filled in, given marks elsewhere. -/
structure Linkable (mode : Mode) (outer : List Mark) (items : List Item) : Prop where
  encodable : ∀ i ∈ items, i.Encodable mode
  near : Near mode items
  far : ∀ i, .code i ∈ items → i.isShort = false → ∀ l ∈ i.label?, ∃ m ∈ outer, m.label = l

theorem Linkable.append {xs ys : List Item} (hx : Linkable mode outer xs)
    (hy : Linkable mode outer ys) : Linkable mode outer (xs ++ ys) where
  encodable := fun i hi => (List.mem_append.1 hi).elim (hx.encodable i) (hy.encodable i)
  near := hx.near.append hy.near
  far := fun i hi => (List.mem_append.1 hi).elim (hx.far i) (hy.far i)

theorem Linkable.nil : Linkable mode outer [] :=
  ⟨by simp, fun o p hp => by simp [placed] at hp, by simp⟩

theorem Linkable.flatMap {α : Type} {xs : List α} {f : α → List Item}
    (h : ∀ x ∈ xs, Linkable mode outer (f x)) : Linkable mode outer (xs.flatMap f) := by
  induction xs with
  | nil => exact .nil
  | cons x rest ih =>
    exact (h x (by simp)).append (ih fun y hy => h y (List.mem_cons_of_mem _ hy))

theorem mem_placed {o : ℕ} {items : List Item} {p : ℕ × X86.Shape} (hp : p ∈ placed mode o items) :
    ∃ i ∈ items, p.2 = i.shape mode p.1 ∧ o ≤ p.1 ∧ p.1 + p.2.size ≤ behind mode o items := by
  induction items generalizing o with
  | nil => simp [placed] at hp
  | cons i rest ih =>
    rcases List.mem_cons.1 hp with rfl | hp
    · exact ⟨i, by simp, rfl, le_rfl, le_behind _ _⟩
    · obtain ⟨j, hj, h1, h2, h3⟩ := ih hp
      exact ⟨j, List.mem_cons_of_mem _ hj, h1, by omega, h3⟩

theorem mem_bound {o : ℕ} {items : List Item} {q : Mark × ℕ} (hq : q ∈ bound mode o items) :
    o ≤ q.2 ∧ q.2 ≤ behind mode o items := by
  induction items generalizing o with
  | nil => simp [bound] at hq
  | cons i rest ih =>
    have hrec : ∀ k, q ∈ bound mode (o + k) rest → k = (i.shape mode o).size →
        o ≤ q.2 ∧ q.2 ≤ behind mode o (i :: rest) := by
      rintro k hk rfl
      exact ⟨by have := (ih hk).1; omega, (ih hk).2⟩
    cases i with
    | mark m =>
      rcases List.mem_cons.1 hq with rfl | hq
      · exact ⟨le_rfl, @le_behind mode o (.mark m :: rest)⟩
      · exact hrec 0 hq rfl
    | code c => exact hrec _ hq rfl
    | align n => exact hrec _ hq rfl

theorem exists_bound {items : List Item} {m : Mark} (h : m ∈ marks items) (o : ℕ) :
    ∃ q ∈ bound mode o items, q.1 = m := by
  rw [← @map_bound mode o] at h
  simpa using h

theorem shape_field_of_mem {o : ℕ} {i : Item} {patch : Patch} {l : ℤ} (hi : i.Encodable mode)
    (h : (i.shape mode o).field = some (patch, l)) :
    ∃ c s, i = .code c ∧ c.shape mode = .ok s ∧ i.shape mode o = s ∧ s.field = some (patch, l) := by
  cases i with
  | code c =>
    obtain ⟨⟨s, hs⟩, -⟩ := hi
    have hshape : (Item.code c).shape mode o = s := by simp [Item.shape, hs, Except.toOption]
    exact ⟨c, s, rfl, hs, hshape, hshape ▸ h⟩
  | mark m => cases h
  | align n => cases h

/-- Code that is short as a whole and has the marks of its short jumps. -/
theorem Linkable.block {items : List Item} (hi : ∀ i ∈ items, i.Encodable mode)
    (hshort : ∀ i, .code i ∈ items → i.isShort = true →
      ∀ l ∈ i.label?, ∃ m ∈ marks items, m.label = l)
    (hfar : ∀ i, .code i ∈ items → i.isShort = false → ∀ l ∈ i.label?, ∃ m ∈ outer, m.label = l)
    (hsize : ∀ o, behind mode o items ≤ o + 127) : Linkable mode outer items where
  encodable := hi
  far := hfar
  near := by
    intro o p hp l hl
    obtain ⟨i, himem, hpi, hle, hge⟩ := mem_placed hp
    obtain ⟨c, s, rfl, hs, -, hf⟩ := shape_field_of_mem (hi i himem) (hpi ▸ hl)
    obtain ⟨hlabel, hlong⟩ := Instruction.shape_field hs
    have hc : c.isShort = true := by
      by_contra h
      exact hlong (by simpa using h) l hf
    obtain ⟨m, hm, rfl⟩ := hshort c himem hc l (by simp [← hlabel, hf])
    obtain ⟨q, hq, rfl⟩ := @exists_bound mode items m hm o
    have hqo := mem_bound hq
    have := hsize o
    exact ⟨q, hq, rfl, by omega, by omega⟩

/-- Code without short jumps. -/
theorem Linkable.of_long {items : List Item} (hi : ∀ i ∈ items, i.Encodable mode)
    (hlong : ∀ i, .code i ∈ items → i.isShort = false)
    (hfar : ∀ i, .code i ∈ items → ∀ l ∈ i.label?, ∃ m ∈ outer, m.label = l) :
    Linkable mode outer items where
  encodable := hi
  far := fun i h _ => hfar i h
  near := by
    intro o p hp l hl
    obtain ⟨i, himem, hpi, -, -⟩ := mem_placed hp
    obtain ⟨c, s, rfl, hs, -, hf⟩ := shape_field_of_mem (hi i himem) (hpi ▸ hl)
    exact absurd hf ((Instruction.shape_field hs).2 (hlong c himem) l)

section Addresses

variable {a : Assembler}

def codeOffset (a : Assembler) (l : ℤ) : ℕ :=
  match a.binding? l with
  | some (.inside o) => o
  | _ => 0

theorem codeOffset_inside {l : ℤ} {o : ℕ} (h : a.binding? l = some (.inside o)) :
    codeOffset a l = o := by
  rw [codeOffset, h]

theorem resolve_codeOffset {l : ℤ} (h : ∃ o, a.binding? l = some (.inside o)) (base : UInt64) :
    a.resolve l base = .ok (base + UInt64.ofNat (codeOffset a l)) := by
  obtain ⟨o, ho⟩ := h
  rw [resolve_inside ho, codeOffset_inside ho]

theorem globalAddresses_codeOffset {xs : List (String × ℤ)}
    (h : ∀ x ∈ xs, ∃ o, a.binding? x.2 = some (.inside o)) (base : UInt64) :
    a.globalAddresses base xs =
      .ok (xs.map fun x => (x.1, base + UInt64.ofNat (codeOffset a x.2))) := by
  induction xs with
  | nil => rfl
  | cons x xs ih =>
    simp only [Assembler.globalAddresses, resolve_codeOffset (h x (by simp)) base,
      ih fun y hy => h y (by simp [hy])]
    rfl

end Addresses

section Fields

variable {a : Assembler} {base : UInt64} {items : List Item}

/-- A distance inside code is what it looks like, wherever the code is. -/
theorem signed64_distance (base o k : ℕ) (j : ℤ)
    (h : -2 ^ 63 ≤ (o : ℤ) - k - j ∧ (o : ℤ) - k - j < 2 ^ 63) :
    signed64 (((base + o) % 2 ^ 64 : ℕ) - ((base + k) % 2 ^ 64 : ℕ) - j) = o - k - j := by
  simp only [signed64, Int.bmod_def]
  split <;> omega

/-- The label of a field is bound, near by for a short jump. -/
theorem Linkable.exists_bound (h : Linkable mode (marks items) items) {p : ℕ × X86.Shape}
    (hp : p ∈ placed mode 0 items) {patch : Patch} {l : ℤ} (hf : p.2.field = some (patch, l)) :
    ∃ q ∈ bound mode 0 items, q.1.label = l ∧
      (patch = .rel8 → q.2 ≤ p.1 + p.2.size + 127 ∧ p.1 + p.2.size ≤ q.2 + 128) := by
  by_cases h8 : patch = .rel8
  · subst h8
    obtain ⟨q, hq, hl, hn⟩ := h.near 0 p hp l hf
    exact ⟨q, hq, hl, fun _ => hn⟩
  · obtain ⟨i, himem, hpi, -, -⟩ := mem_placed hp
    obtain ⟨c, s, rfl, hs, -, hf⟩ := shape_field_of_mem (h.encodable i himem) (hpi ▸ hf)
    have hc : c.isShort = false := by
      cases c with
      | jmpShort k => cases hs; cases hf; exact absurd rfl h8
      | jccShort c k => cases hs; cases hf; exact absurd rfl h8
      | _ => rfl
    obtain ⟨m, hm, rfl⟩ :=
      h.far c himem hc l (by simp [← (Instruction.shape_field hs).1, hf])
    obtain ⟨q, hq, rfl⟩ := @Program.exists_bound mode items m hm 0
    exact ⟨q, hq, rfl, fun h => absurd h h8⟩

/-- All fields of linkable code can be filled in, if addresses of four bytes fit. -/
theorem fieldAt?_isSome (h : Linkable mode (marks items) items)
    (hm : ∀ q ∈ bound mode 0 items, a.binding? q.1.label = some (.inside q.2))
    (hsize : behind mode 0 items < 2 ^ 31)
    (hbase : mode = .bits64 ∨ base.toNat + behind mode 0 items < 2 ^ 32) :
    ∀ p ∈ placed mode 0 items, (fieldAt? a base p).isSome := by
  intro p hp
  obtain ⟨i, himem, hpi, -, hge⟩ := mem_placed hp
  unfold fieldAt?
  cases hfield : p.2.field with
  | none => rfl
  | some x =>
    obtain ⟨patch, l⟩ := x
    obtain ⟨c, s, rfl, hs, hshape, hf⟩ := shape_field_of_mem (h.encodable i himem) (hpi ▸ hfield)
    have hps : p.2 = s := hpi.trans hshape
    have hcount := Instruction.shape_counts hs patch l hf
    have hroom : s.room = patch.width := by simp [X86.Shape.room, hf]
    obtain ⟨q, hq, rfl, hnear⟩ := h.exists_bound hp hfield
    have hqle := (mem_bound hq).2
    have htarget : (base + UInt64.ofNat q.2).toNat = (base.toNat + q.2) % 2 ^ 64 := by simp
    have hsource (k : ℕ) : (base + UInt64.ofNat k).toNat = (base.toNat + k) % 2 ^ 64 := by simp
    rw [hps] at hge hnear ⊢
    simp only [resolve_inside (hm q hq), Except.toOption, Option.bind_eq_bind, Option.bind_some,
      Patch.field, htarget, hsource]
    simp only [X86.Shape.size, hroom] at hge hnear
    cases patch with
    | rel8 =>
      have htail : s.tail.length = 0 := by simp only at hcount; simp [hcount]
      have hn := hnear rfl
      have hd := signed64_distance base.toNat q.2 (p.1 + s.head.length + Patch.rel8.width) 0
        (by omega)
      simp only [sub_zero] at hd
      have hfit : -128 ≤ (q.2 : ℤ) - (p.1 + s.head.length + Patch.rel8.width : ℕ) ∧
          (q.2 : ℤ) - (p.1 + s.head.length + Patch.rel8.width : ℕ) ≤ 127 := by omega
      rw [hd, if_pos hfit]
      rfl
    | rel32 k =>
      simp only at hcount
      have hd := signed64_distance base.toNat q.2 (p.1 + s.head.length + (Patch.rel32 k).width) k
        (by omega)
      have hfit : -2 ^ 31 ≤ (q.2 : ℤ) - (p.1 + s.head.length + (Patch.rel32 k).width : ℕ) - k ∧
          (q.2 : ℤ) - (p.1 + s.head.length + (Patch.rel32 k).width : ℕ) - k < 2 ^ 31 := by omega
      simp only [hd, if_pos hfit]
      rfl
    | abs32 =>
      simp only at hcount
      have h32 := hbase.resolve_left hcount
      have hfit : (base.toNat + q.2) % 2 ^ 64 < 2 ^ 32 := by omega
      simp only [if_pos hfit]
      rfl
    | abs64 => rfl

end Fields

end PortCodec.Program
