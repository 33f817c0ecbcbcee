import PortCodec.Proofs.Encoding.Skeleton
import PortCodec.Proofs.Linking.Linkable

/-! The routines of a compiled codec can be linked: all their instructions can be encoded, their
short jumps stay inside small pieces, and their other labels are marks of the program. -/

namespace PortCodec.Program

open X86 Assembly

variable {mode : Mode} {outer : List Mark}

def Item.skeleton : Item → Item
  | .code i => .code i.skeleton
  | .mark _ => .align 0
  | .align n => .align n

def Item.hasShape (mode : Mode) : Item → Bool
  | .code i => (i.shape mode).isOk
  | _ => true

/-- The items of a piece, but for the numbers in them, can be encoded. -/
def hasShapes (mode : Mode) (items : List Item) : Bool :=
  (items.map Item.skeleton).all (Item.hasShape mode)

def AllCode (q : Instruction → Prop) (items : List Item) : Prop := ∀ i, .code i ∈ items → q i

section AllCode

variable {q : Instruction → Prop} {rest : List Item}

@[simp] theorem allCode_nil : AllCode q [] := by simp [AllCode]

@[simp] theorem allCode_code {i : Instruction} :
    AllCode q (.code i :: rest) ↔ q i ∧ AllCode q rest := by
  simp [AllCode, or_imp, forall_and]

@[simp] theorem allCode_mark {m : Mark} : AllCode q (.mark m :: rest) ↔ AllCode q rest := by
  simp [AllCode]

@[simp] theorem allCode_align {n : ℕ} : AllCode q (.align n :: rest) ↔ AllCode q rest := by
  simp [AllCode]

end AllCode

/-- The instructions of a piece have immediates that fit and plain operands. -/
def Modest (items : List Item) : Prop := AllCode (·.isModest = true) items

theorem encodable_of_skeleton {items : List Item} (h : hasShapes mode items = true)
    (hi : Modest items) : ∀ i ∈ items, i.Encodable mode := by
  intro i hmem
  cases i with
  | code c =>
    have hc : ((c.skeleton).shape mode).isOk = true :=
      List.all_eq_true.1 h (Item.skeleton (.code c)) (List.mem_map_of_mem hmem)
    exact ⟨Instruction.exists_shape (isOk_iff.1 hc) (hi c hmem),
      Instruction.isPlain_of_isModest (hi c hmem)⟩
  | mark m => trivial
  | align n => trivial

/-- The label of an instruction is one of those of marks. -/
def LabelIn (ms : List Mark) (i : Instruction) : Prop := ∀ l ∈ i.label?, ∃ m ∈ ms, m.label = l

/-- A piece without short jumps. -/
theorem Linkable.of_far {items : List Item} (h : hasShapes mode items = true) (hi : Modest items)
    (hf : AllCode (fun i => i.isShort = false ∧ LabelIn outer i) items) :
    Linkable mode outer items :=
  .of_long (encodable_of_skeleton h hi) (fun i hmem => (hf i hmem).1) fun i hmem => (hf i hmem).2

/-- A target without a layout, for what does not depend on it. -/
def Target.bare (c : Convention) : Target := ⟨⟨0, 0, 0, 0, 0, false, [], []⟩, c⟩

def Step.skeleton : Step → Step
  | .button .. => .button 0 0 0
  | .axis _ => .axis 0
  | s => s

theorem step_hasShapes : ∀ c ∈ Convention.all,
    ∀ s ∈ [Step.button 0 0 0, .axis 0, .leadingPipe, .pipe, .finish, .finishEmpty],
      hasShapes c.mode ((Target.bare c).serializeStep 0 s) = true ∧
      hasShapes c.mode ((Target.bare c).deserializeStep 0 s) = true := by
  decide +kernel

theorem Step.skeleton_mem (s : Step) : Step.skeleton s ∈
    [Step.button 0 0 0, .axis 0, .leadingPipe, .pipe, .finish, .finishEmpty] := by
  cases s <;> simp [skeleton]

variable {t : Target}

theorem serializeStep_hasShapes (hc : t.convention ∈ Convention.all) (i : ℕ) (s : Step) :
    hasShapes t.mode (t.serializeStep i s) = true := by
  have h := (step_hasShapes _ hc _ (Step.skeleton_mem s)).1
  cases s <;> exact h

theorem deserializeStep_hasShapes (hc : t.convention ∈ Convention.all) (i : ℕ) (s : Step) :
    hasShapes t.mode (t.deserializeStep i s) = true := by
  have h := (step_hasShapes _ hc _ (Step.skeleton_mem s)).2
  cases s <;> exact h

section Extent

def extent (mode : Mode) (i : Instruction) : ℕ := ((Item.code i).shape mode 0).size

def Within (mode : Mode) (n : ℕ) (items : List Item) : Prop := ∀ o, behind mode o items ≤ o + n

theorem Within.nil : Within mode 0 [] := fun _ => le_rfl

theorem Within.code {i : Instruction} {k n : ℕ} {rest : List Item} (hi : extent mode i ≤ k)
    (h : Within mode n rest) : Within mode (k + n) (.code i :: rest) := by
  intro o
  have := h (o + extent mode i)
  simp only [behind]
  change behind mode (o + extent mode i) rest ≤ _
  omega

theorem Within.mark {m : Mark} {n : ℕ} {rest : List Item} (h : Within mode n rest) :
    Within mode n (.mark m :: rest) := h

theorem extent_le (mode : Mode) (i : Instruction) : extent mode i ≤ 15 := by
  simp only [extent, Item.shape]
  cases h : i.shape mode with
  | error fault => exact Nat.zero_le _
  | ok s => exact Instruction.shape_size h

theorem extent_jccShort (c : Condition) (l : ℤ) : extent mode (.jccShort c l) = 2 := rfl

end Extent

/-- A piece that is short as a whole and has the marks of its short jumps. -/
theorem Linkable.of_within {items : List Item} {n : ℕ} (h : hasShapes mode items = true)
    (hi : Modest items)
    (hf : AllCode (fun i => LabelIn (if i.isShort then marks items else outer) i) items)
    (hn : Within mode n items) (hle : n ≤ 127) : Linkable mode outer items := by
  refine .block (encodable_of_skeleton h hi) (fun i hmem hs => ?_) (fun i hmem hs => ?_)
    fun o => (hn o).trans (by omega)
  · simpa [LabelIn, hs] using hf i hmem
  · simpa [LabelIn, hs] using hf i hmem

section Immediates

theorem isOk_immediate {v : ℤ} (h : -128 ≤ v) (h' : v ≤ 255) : (immediate .byte v).isOk = true := by
  have hfit : ¬ (v < -128 ∨ 255 < v) := by omega
  simp only [immediate, if_neg hfit]
  rfl

theorem isOk_immediate_byte (b : UInt8) : (immediate .byte b.toNat).isOk = true := by
  rw [immediate_byte]
  rfl

theorem isOk_immediate_word : (immediate .word 0).isOk = true := rfl

theorem isOk_immediate_dword (v : ℤ) : (immediate .dword v).isOk = true := rfl

theorem isOk_immediate_pointer (m : Mode) (v : ℤ) : (immediate m.pointer v).isOk = true := by
  cases m <;> rfl

theorem isPlain_pointer {r : Register} {d : ℤ} : (Memory.pointer r d).IsPlain := by
  simp [Memory.IsPlain, Memory.pointer]

end Immediates

attribute [local simp] Modest LabelIn Instruction.isModest Instruction.immediate?
  Instruction.memory? Instruction.label? Instruction.isShort Operand.memory? Target.stateAt
  Target.textByte isOk_immediate isOk_immediate_byte isOk_immediate_word isOk_immediate_dword
  isOk_immediate_pointer isPlain_pointer

theorem label_pointer (r : Register) (d : ℤ) : (Memory.pointer r d).label = none := rfl

attribute [local simp] label_pointer Target.pointer

theorem serializeStep_linkable (hc : t.convention ∈ Convention.all) (hfmt : Mark.formatAxis ∈ outer)
    (i : ℕ) (s : Step) : Linkable t.mode outer (t.serializeStep i s) := by
  have hs := serializeStep_hasShapes hc i s
  cases s with
  | button offset mask char =>
    refine .of_within (n := 15 + (15 + (2 + (15 + (15 + 0))))) hs ?_ ?_ ?_ (by decide)
    · simp [Target.serializeStep]
    · simp [Target.serializeStep, marks]
    · exact .code (extent_le ..) (.code (extent_le ..) (.code (extent_jccShort ..).le
        (.code (extent_le ..) (.mark (.code (extent_le ..) .nil)))))
  | axis offset =>
    refine .of_far hs ?_ ?_
    · simp [Target.serializeStep]
    · simpa [Target.serializeStep] using ⟨_, hfmt, rfl⟩
  | leadingPipe | pipe | finish | finishEmpty =>
    refine .of_far hs ?_ ?_
    · simp [Target.serializeStep, Target.textLength]
    · simp [Target.serializeStep, Target.textLength]

section JumpOnByte

variable {bs : List ℤ} {m : Mark}

theorem jumpOnByte_cons (b : ℤ) (bs : List ℤ) (m : Mark) : jumpOnByte (b :: bs) m =
    .code (.aluImmediate .cmp .byte (.register .rax) b) :: .code (.jccShort .equal m.label) ::
      jumpOnByte bs m := rfl

theorem jumpOnByte_nil (m : Mark) : jumpOnByte [] m = [] := rfl

end JumpOnByte

/-- The comparison of a register with a byte takes three bytes. -/
theorem extent_compare : ∀ c ∈ Convention.all, ∀ b ∈ [124, 13, 10, 46, 32],
    extent c.mode (.aluImmediate .cmp .byte (.register .rax) b) ≤ 3 := by
  decide +kernel

theorem deserializeStep_linkable (hc : t.convention ∈ Convention.all)
    (hparse : Mark.parseAxis ∈ outer) (hskip : Mark.skipField ∈ outer) (i : ℕ) (s : Step) :
    Linkable t.mode outer (t.deserializeStep i s) := by
  have hs := deserializeStep_hasShapes hc i s
  cases s with
  | button offset mask char =>
    have hcmp := extent_compare _ hc
    refine .of_within (n := 15 + (3 + (2 + (3 + (2 + (3 + (2 + (15 + (2 + (15 + (3 + (2 + (3 + (2 +
      (15 + 0))))))))))))))) hs ?_ ?_ ?_ (by decide)
    · simp [Target.deserializeStep, jumpOnByte_cons, jumpOnByte_nil]
    · simp [Target.deserializeStep, jumpOnByte_cons, jumpOnByte_nil, marks]
    · exact .code (extent_le ..) (.code (hcmp _ (by decide)) (.code (extent_jccShort ..).le
        (.code (hcmp _ (by decide)) (.code (extent_jccShort ..).le
        (.code (hcmp _ (by decide)) (.code (extent_jccShort ..).le
        (.code (extent_le ..) (.code (extent_jccShort ..).le (.code (extent_le ..)
        (.code (hcmp _ (by decide)) (.code (extent_jccShort ..).le
        (.code (hcmp _ (by decide)) (.code (extent_jccShort ..).le
        (.code (extent_le ..) (.mark .nil)))))))))))))))
  | axis offset =>
    refine .of_far hs ?_ ?_
    · simp [Target.deserializeStep]
    · simpa [Target.deserializeStep] using ⟨_, hparse, rfl⟩
  | leadingPipe | pipe =>
    refine .of_far hs ?_ ?_
    · simp [Target.deserializeStep]
    · simpa [Target.deserializeStep] using ⟨_, hskip, rfl⟩
  | finish | finishEmpty =>
    refine .of_far hs ?_ ?_
    · simp [Target.deserializeStep, Target.textLength]
    · simp [Target.deserializeStep, Target.textLength]

/-- What routines have in common. -/
theorem common_hasShapes : ∀ c ∈ Convention.all,
    hasShapes c.mode ((Target.bare c).entry .serialize) = true ∧
    hasShapes c.mode (Target.bare c).leave = true ∧
    hasShapes c.mode [.code (.mov c.mode.pointer (.register (Target.bare c).frame.start)
      (Target.bare c).frame.text), .code (.alu .xor .dword .rax .rax)] = true ∧
    ∀ w ∈ [Width.byte, .word, .dword],
      hasShapes c.mode [.code (.movImmediate w (.memory ((Target.bare c).stateAt 0)) 0)] =
        true := by
  decide +kernel

theorem entry_linkable (hc : t.convention ∈ Convention.all) (m : Mark) :
    Linkable t.mode outer (t.entry m) := by
  refine .of_far (common_hasShapes _ hc).1 ?_ ?_
  · intro i hi
    simp only [Target.entry, List.mem_cons, reduceCtorEq, List.mem_map, Item.code.injEq,
      false_or] at hi
    obtain ⟨r, -, rfl⟩ := hi
    simp
  · intro i hi
    simp only [Target.entry, List.mem_cons, reduceCtorEq, List.mem_map, Item.code.injEq,
      false_or] at hi
    obtain ⟨r, -, rfl⟩ := hi
    simp

theorem leave_linkable (hc : t.convention ∈ Convention.all) : Linkable t.mode outer t.leave := by
  refine .of_far (common_hasShapes _ hc).2.1 ?_ ?_
  · intro i hi
    simp only [Target.leave, List.mem_append, List.mem_map, List.mem_reverse, Item.code.injEq,
      List.mem_singleton] at hi
    rcases hi with ⟨r, -, rfl⟩ | rfl <;> simp
  · intro i hi
    simp only [Target.leave, List.mem_append, List.mem_map, List.mem_reverse, Item.code.injEq,
      List.mem_singleton] at hi
    rcases hi with ⟨r, -, rfl⟩ | rfl <;> simp

theorem start_linkable (hc : t.convention ∈ Convention.all) :
    Linkable t.mode outer [.code (.mov t.pointer (.register t.frame.start) t.frame.text)] := by
  refine .of_far ?_ (by simp) (by simp)
  have h := (common_hasShapes _ hc).2.2.1
  simp only [hasShapes, List.map_cons, List.all_cons, Bool.and_eq_true] at h ⊢
  exact ⟨h.1, rfl⟩

theorem clearState_linkable (hc : t.convention ∈ Convention.all) :
    Linkable t.mode outer t.clearState := by
  have hzero (w : Width) (hw : w ∈ [Width.byte, .word, .dword]) (o : ℕ) :
      Linkable t.mode outer [.code (.movImmediate w (.memory (t.stateAt o)) 0)] := by
    refine .of_far ((common_hasShapes _ hc).2.2.2 w hw) ?_ (by simp)
    simp only [List.mem_cons, List.not_mem_nil, or_false] at hw
    rcases hw with rfl | rfl | rfl <;> simp
  unfold Target.clearState
  refine ((?_ : Linkable t.mode outer _).append ?_).append ?_
  · rw [List.map_eq_flatMap]
    exact .flatMap fun i _ => hzero _ (by decide) _
  · split_ifs
    · exact .nil
    · exact hzero _ (by decide) _
  · split_ifs
    · exact .nil
    · exact hzero _ (by decide) _

/-- The parts of the routines that reach single controls. Of an entry only the kind matters, and
whether its bit is the first. -/
theorem access_hasShapes : ∀ c ∈ Convention.all,
    let t := Target.bare c
    hasShapes c.mode [.code (.alu .xor .dword .rax .rax)] = true ∧
    hasShapes c.mode [.code (.shl t.pointer t.frame.controller 0)] = true ∧
    hasShapes c.mode (t.dispatch .readTable .readEnd) = true ∧
    hasShapes c.mode [.code (.address 0)] = true ∧
    ∀ e ∈ [Entry.mk .button 0 0 0 0, .mk .button 0 1 0 0, .mk .axis 0 0 0 0],
      hasShapes c.mode (t.readEntry e) = true ∧ hasShapes c.mode (t.writeEntry e) = true := by
  decide +kernel

theorem hasShapes_append {xs ys : List Item} :
    hasShapes mode (xs ++ ys) = (hasShapes mode xs && hasShapes mode ys) := by
  simp [hasShapes]

theorem zero_linkable (hc : t.convention ∈ Convention.all) :
    Linkable t.mode outer [.code (.alu .xor .dword .rax .rax)] :=
  .of_far (access_hasShapes _ hc).1 (by simp) (by simp)

theorem dispatch_linkable (hc : t.convention ∈ Convention.all) {table done : Mark}
    (htable : table ∈ outer) (hdone : done ∈ outer) :
    Linkable t.mode outer (t.dispatch table done) := by
  obtain ⟨-, hshift, hbare, -⟩ := access_hasShapes _ hc
  have hlabel (m : Mark) (hm : m ∈ outer) : ∃ k ∈ outer, k.label = m.label := ⟨m, hm, rfl⟩
  refine .of_far ?_ ?_ ?_
  · simp only [Target.dispatch, hasShapes_append, Bool.and_eq_true] at hbare ⊢
    refine ⟨⟨⟨hbare.1.1.1, ?_⟩, hbare.1.2⟩, ?_⟩
    · split_ifs
      · rfl
      · exact hshift
    · have h := hbare.2
      split_ifs at h ⊢ <;> first | exact h | contradiction
  · simp only [Target.dispatch]
    split_ifs <;> simp [Memory.IsPlain, Memory.labelled, Memory.indexed, Memory.table]
  · simp only [Target.dispatch]
    split_ifs <;> simp [Memory.labelled, Memory.indexed, Memory.table,
      hlabel _ htable, hlabel _ hdone]

theorem readEntry_linkable (hc : t.convention ∈ Convention.all) (hend : Mark.readEnd ∈ outer)
    (e : Entry) : Linkable t.mode outer (t.readEntry e) := by
  have hlabel : ∃ k ∈ outer, k.label = Mark.readEnd.label := ⟨_, hend, rfl⟩
  have h := (access_hasShapes _ hc).2.2.2.2
  simp only [Target.readEntry]
  split_ifs with hk hb
  · exact .of_far (h _ (by simp : Entry.mk .button 0 1 0 0 ∈ _)).1 (by simp) (by simp [hlabel])
  · exact .of_far (h _ (by simp : Entry.mk .button 0 0 0 0 ∈ _)).1 (by simp) (by simp [hlabel])
  · exact .of_far (h _ (by simp : Entry.mk .axis 0 0 0 0 ∈ _)).1 (by simp) (by simp [hlabel])

theorem writeEntry_linkable (hc : t.convention ∈ Convention.all) (hend : Mark.writeEnd ∈ outer)
    (e : Entry) : Linkable t.mode outer (t.writeEntry e) := by
  have hlabel : ∃ k ∈ outer, k.label = Mark.writeEnd.label := ⟨_, hend, rfl⟩
  have h := (access_hasShapes _ hc).2.2.2.2
  simp only [Target.writeEntry]
  split_ifs with hk
  · exact .of_far (h _ (by simp : Entry.mk .button 0 0 0 0 ∈ _)).2 (by simp) (by simp [hlabel])
  · exact .of_far (h _ (by simp : Entry.mk .axis 0 0 0 0 ∈ _)).2 (by simp) (by simp [hlabel])

theorem Linkable.mark {m : Mark} {items : List Item} (h : Linkable mode outer items) :
    Linkable mode outer (.mark m :: items) :=
  have hm : Linkable mode outer [.mark m] := .of_far rfl (by simp) (by simp)
  hm.append h

theorem entries_linkable {m : ℕ → Mark} {body : Entry → List Item}
    (h : ∀ e, Linkable t.mode outer (body e)) : Linkable t.mode outer (t.entries m body) := by
  refine .flatMap fun x _ => ?_
  dsimp only
  split_ifs
  · exact (h x.1).mark
  · exact .nil

/-- A table with what comes before it. -/
def Target.table (t : Target) (table done : Mark) (m : ℕ → Mark) : List Item :=
  t.opening table ++ t.slots done m

theorem table_linkable (hc : t.convention ∈ Convention.all) {table done : Mark} {m : ℕ → Mark}
    (hdone : done ∈ outer)
    (hm : ∀ p ∈ t.layout.index.zipIdx, p.1.isStored = true → m p.2 ∈ outer) :
    Linkable t.mode outer (t.table table done m) := by
  have h := (access_hasShapes _ hc).2.2.2.1
  have halign : Linkable t.mode outer [.align t.pointer.size] := .of_far rfl (by simp) (by simp)
  refine halign.append (.mark ?_)
  rw [Target.slots, List.map_eq_flatMap]
  refine .flatMap fun p hp => .of_far h (by simp) ?_
  by_cases hs : p.1.isStored = true
  · simpa [hs] using ⟨_, hm p hp hs, rfl⟩
  · simpa [hs] using ⟨_, hdone, rfl⟩

/-- Code without filling takes the same room wherever it is. -/
theorem behind_add {items : List Item} (h : ∀ n, .align n ∉ items) (o : ℕ) :
    behind mode o items = o + behind mode 0 items := by
  induction items generalizing o with
  | nil => rfl
  | cons i rest ih =>
    have hrest : ∀ n, .align n ∉ rest := fun n hn => h n (List.mem_cons_of_mem _ hn)
    have hsize : (i.shape mode o).size = (i.shape mode 0).size := by
      cases i with
      | align n => exact absurd List.mem_cons_self (h n)
      | _ => rfl
    simp only [behind, hsize]
    rw [ih hrest (o + _), ih hrest (0 + _)]
    omega

theorem helper_hasShapes : ∀ c ∈ Convention.all,
    ∀ items ∈ [(Target.bare c).formatAxis, (Target.bare c).parseAxis, (Target.bare c).skipField],
      hasShapes c.mode items = true ∧ behind c.mode 0 items ≤ 127 := by
  decide +kernel

theorem helper_linkable {items : List Item} (hc : t.convention ∈ Convention.all)
    (hitems : items ∈ [t.formatAxis, t.parseAxis, t.skipField]) : Linkable t.mode outer items := by
  have hs : hasShapes t.mode items = true ∧ behind t.mode 0 items ≤ 127 :=
    helper_hasShapes _ hc items hitems
  have hn (h : ∀ n, .align n ∉ items) : Within t.mode 127 items := fun o => by
    rw [behind_add h]
    omega
  simp only [List.mem_cons, List.not_mem_nil, or_false] at hitems
  rcases hitems with rfl | rfl | rfl
  · refine .of_within hs.1 ?_ ?_ (hn ?_) le_rfl
    · simp [Target.formatAxis]
    · simp [Target.formatAxis, marks]
    · simp [Target.formatAxis]
  · refine .of_within hs.1 ?_ ?_ (hn ?_) le_rfl
    · simp [Target.parseAxis]
    · simp [Target.parseAxis, marks]
    · simp [Target.parseAxis]
  · refine .of_within hs.1 ?_ ?_ (hn ?_) le_rfl
    · simp [Target.skipField, jumpOnByte_cons, jumpOnByte_nil]
    · simp [Target.skipField, jumpOnByte_cons, jumpOnByte_nil, marks]
    · simp [Target.skipField, jumpOnByte_cons, jumpOnByte_nil]

section Arguments

def Target.wanted (t : Target) : List (List Register) :=
  let f := t.frame
  [[f.state, f.text], [f.state, f.controller, f.control],
    [f.state, f.controller, f.control, f.value]]

/-- Code in one go: nothing but instructions that can be encoded and name no label. -/
def isStraight (mode : Mode) (items : List Item) : Bool :=
  items.all fun
    | .code i => (i.shape mode).isOk && i.isModest && !i.isShort && i.label?.isNone
    | _ => false

def Target.arguments (t : Target) (dsts : List Register) : List Item :=
  (t.loadArguments dsts).getD []

theorem arguments_isStraight : ∀ c ∈ Convention.all, ∀ dsts ∈ (Target.bare c).wanted,
    (((Target.bare c).loadArguments dsts).any (isStraight c.mode)) = true := by
  decide +kernel

theorem isStraight_code {items : List Item} (h : isStraight mode items = true) {i : Item}
    (hi : i ∈ items) : ∃ c, i = .code c ∧ (∃ s, c.shape mode = .ok s) ∧ c.isModest = true ∧
      c.isShort = false ∧ c.label? = none := by
  have := List.all_eq_true.1 h i hi
  cases i with
  | code c =>
    simp only [Bool.and_eq_true, isOk_iff, Bool.not_eq_true', Option.isNone_iff_eq_none] at this
    exact ⟨c, rfl, this.1.1.1, this.1.1.2, this.1.2, this.2⟩
  | mark m => simp at this
  | align n => simp at this

theorem loadArguments_eq (hc : t.convention ∈ Convention.all) {dsts : List Register}
    (hd : dsts ∈ t.wanted) :
    t.loadArguments dsts = some (t.arguments dsts) ∧
      isStraight t.mode (t.arguments dsts) = true := by
  have h : (t.loadArguments dsts).any (isStraight t.mode) = true := arguments_isStraight _ hc _ hd
  unfold Target.arguments
  cases hl : t.loadArguments dsts with
  | none => simp [hl] at h
  | some items => exact ⟨rfl, by simpa [hl] using h⟩

theorem arguments_linkable (hc : t.convention ∈ Convention.all) {dsts : List Register}
    (hd : dsts ∈ t.wanted) : Linkable t.mode outer (t.arguments dsts) := by
  have h := (loadArguments_eq hc hd).2
  refine .of_long (fun i hi => ?_) (fun i hi => ?_) fun i hi l hl => ?_
  · obtain ⟨c, rfl, hs, hm, -⟩ := isStraight_code h hi
    exact ⟨hs, Instruction.isPlain_of_isModest hm⟩
  · obtain ⟨c, ⟨⟩, -, -, hn, -⟩ := isStraight_code h hi
    exact hn
  · obtain ⟨c, ⟨⟩, -, -, -, hn⟩ := isStraight_code h hi
    cases hn.symm.trans hl

end Arguments

end PortCodec.Program
