import PortCodec.Proofs.Linking.Linked

/-! Code under construction only grows. Whatever is done to it, its bytes and its fields stay, new
fields stand behind the old bytes, and a label that was bound keeps its binding. So linking leaves a
stretch of code alone but for its own fields, whatever was written before it and behind it. -/

namespace PortCodec.Assembly

/-- What a label of a number can stand for in code of a size. Places are not behind the code, and a
base comes before the labels that are counted from it. -/
def Binding.Fits (size : ℕ) (l : ℤ) : Binding → Prop
  | .unbound | .external _ => True
  | .inside offset => offset ≤ size
  | .relative base _ => 0 ≤ base ∧ base < l

theorem Binding.Fits.mono {size size' : ℕ} {l : ℤ} {x : Binding} (h : x.Fits size l)
    (hle : size ≤ size') :
    x.Fits size' l := by
  cases x with
  | unbound | external => trivial
  | inside offset => exact le_trans h hle
  | relative base delta => exact h

def Relocation.source (r : Relocation) (base : UInt64) : UInt64 :=
  base + UInt64.ofNat (r.offset + r.size.toNat)

end PortCodec.Assembly

namespace PortCodec.Assembler

open Assembly X86

variable {a b c : Assembler} {e : Emitter}

/-- What can be done to code under construction. -/
inductive Edit
  | bytes (bs : Bytes)
  | word (k n : ℕ)
  | pad (n : ℤ) (fill : UInt8)
  | align (n : ℤ) (fill : UInt8)
  | newLabel
  | define (l : ℤ)
  | here
  | external (address : UInt64)
  | relative (base delta : ℤ)
  | exportAs (name : String) (l : ℤ)
  | relocate (size : ℤ) (patch : Patch) (target : ℤ)
  | emit (mode : Mode) (i : Instruction)

/-- The code after an edit. A misuse of labels leaves it as it is; an instruction that cannot be
encoded may leave its first bytes. -/
def Edit.apply (a : Assembler) : Edit → Assembler
  | .bytes bs => a.bytes bs
  | .word k n => a.word k n
  | .pad n fill => a.pad n fill
  | .align n fill => a.align n fill
  | .newLabel => a.newLabel.1
  | .define l => (a.define l).toOption.getD a
  | .here => a.here.1
  | .external address => (a.external address).1
  | .relative base delta => ((a.relative base delta).toOption.map (·.1)).getD a
  | .exportAs name l => a.exportAs name l
  | .relocate size patch target => a.relocate size patch target
  | .emit mode i => (Emitter.emit { mode, assembler := a } i).1.assembler

def edited (a : Assembler) (edits : List Edit) : Assembler := edits.foldl Edit.apply a

/-- The changes that instructions are made of. None of them touches what is there. -/
inductive Addition : Assembler → Assembler → Prop
  | bytes (a : Assembler) (bs : Bytes) : Addition a (a.bytes bs)
  | relocate (a : Assembler) (size : ℤ) (patch : Patch) (target : ℤ) :
      Addition a (a.relocate size patch target)
  | label (a : Assembler) {x : Binding} (hx : x.Fits a.size a.labels.size) :
      Addition a (a.addLabel x).1

abbrev Additions : Assembler → Assembler → Prop := Relation.ReflTransGen Addition

/-- The changes that all edits are made of. -/
inductive Change : Assembler → Assembler → Prop
  | bytes (a : Assembler) (bs : Bytes) : Change a (a.bytes bs)
  | relocate (a : Assembler) (size : ℤ) (patch : Patch) (target : ℤ) :
      Change a (a.relocate size patch target)
  | label (a : Assembler) {x : Binding} (hx : x.Fits a.size a.labels.size) :
      Change a (a.addLabel x).1
  | define {a b : Assembler} {l : ℤ} (h : a.define l = .ok b) : Change a b
  | exportAs (a : Assembler) (name : String) (l : ℤ) : Change a (a.exportAs name l)

abbrev Changes : Assembler → Assembler → Prop := Relation.ReflTransGen Change

theorem Addition.change (h : Addition a b) : Change a b := by
  cases h with
  | bytes bs => exact .bytes a bs
  | relocate size patch target => exact .relocate a size patch target
  | label hx => exact .label a hx

theorem Additions.changes (h : Additions a b) : Changes a b := h.lift id fun _ _ => Addition.change

theorem lt_of_binding?_isSome {l : ℤ} (h : (a.binding? l).isSome) : 0 ≤ l ∧ l < a.labels.size := by
  unfold binding? at h
  split_ifs at h with h0
  · have : l.toNat < a.labels.size := by simpa using h
    omega
  · cases h

theorem binding?_addLabel (a : Assembler) (x : Binding) (l : ℤ) :
    (a.addLabel x).1.binding? l = if l = a.labels.size then some x else a.binding? l := by
  unfold binding? addLabel
  by_cases h0 : 0 ≤ l
  · rw [if_pos h0, if_pos h0, Array.getElem?_push]
    exact if_congr (by omega) rfl rfl
  · rw [if_neg h0, if_neg h0, if_neg (by omega)]

/-- A label is bound only if it was not. -/
theorem define_eq_ok {l : ℤ} (h : a.define l = .ok b) :
    a.binding? l = some .unbound ∧
      b = { a with labels := a.labels.setIfInBounds l.toNat (.inside a.size) } := by
  unfold define at h
  split at h
  · cases h
  next hl => exact ⟨hl, (Except.ok.inj h).symm⟩
  · cases h

theorem binding?_define {l : ℤ} (h : a.define l = .ok b) (k : ℤ) :
    b.binding? k = if k = l then some (.inside a.size) else a.binding? k := by
  obtain ⟨hl, rfl⟩ := define_eq_ok h
  have hlt := lt_of_binding?_isSome (Option.isSome_of_eq_some hl)
  unfold binding?
  by_cases h0 : 0 ≤ k
  · rw [if_pos h0, if_pos h0, Array.getElem?_setIfInBounds]
    split_ifs <;> first | rfl | omega
  · rw [if_neg h0, if_neg h0, if_neg (by omega)]

theorem chain_relative {k l d : ℤ} (hk : c.binding? k = some (.relative l d)) (hl : 0 ≤ l ∧ l < k) :
    c.chain k = ((c.chain l).1, (c.chain l).2 + d) := by
  rw [chain]
  simp only [hk, hl, and_self, ↓reduceDIte]

/-- A label at a distance from another one is there in linked code. -/
theorem resolve_relative {k l d : ℤ} (hk : c.binding? k = some (.relative l d)) (hl : 0 ≤ l ∧ l < k)
    (base : UInt64) :
    c.resolve k base = (c.resolve l base).map (· + UInt64.ofInt d) := by
  unfold resolve
  rw [chain_relative hk hl]
  generalize c.chain l = x
  obtain ⟨anchor, sum⟩ := x
  cases anchor with
  | inside o | external p =>
    refine congrArg Except.ok ?_
    rw [UInt64.ofInt_add, ← UInt64.add_assoc]
  | undefined j => rfl

theorem additions_bytes (a : Assembler) (bs : Bytes) : Additions a (a.bytes bs) :=
  .single (.bytes a bs)

theorem additions_relocate (a : Assembler) (size : ℤ) (patch : Patch) (target : ℤ) :
    Additions a (a.relocate size patch target) := .single (.relocate a size patch target)

/-- A label can only be counted from one that is there. -/
theorem additions_relative {base delta l : ℤ} (h : a.relative base delta = .ok (b, l)) :
    Additions a b := by
  unfold relative at h
  split at h <;> cases h
  next hbase => exact .single (.label a (lt_of_binding?_isSome (Option.isSome_of_eq_some hbase)))

section Emitting

theorem assembler_fail (e : Emitter) (fault : OperandFault) :
    (e.fail fault).assembler = e.assembler := by
  unfold Emitter.fail
  split_ifs <;> rfl

theorem additions_labelMemory (e : Emitter) (reg : UInt8) (m : Memory) (l : ℤ) (trailing : ℕ) :
    Additions e.assembler (e.labelMemory reg m l trailing).1.assembler := by
  unfold Emitter.labelMemory
  dsimp only
  split
  · exact .refl
  next assembler target htarget =>
    have hlabel : Additions e.assembler assembler := by
      split_ifs at htarget
      · cases htarget
        exact .refl
      · exact additions_relative htarget
    split
    · rw [assembler_fail]
      exact hlabel
    · exact hlabel.trans ((additions_bytes _ _).trans (additions_relocate _ _ _ _))

theorem additions_memory (e : Emitter) (reg : UInt8) (m : Memory) (trailing : ℕ) :
    Additions e.assembler (e.memory reg m trailing).1.assembler := by
  unfold Emitter.memory
  split
  · exact additions_labelMemory ..
  · split
    · rw [assembler_fail]
    · exact additions_bytes _ _

theorem additions_form (e : Emitter) (f : Form) :
    Additions e.assembler (e.form f).1.assembler := by
  unfold Emitter.form
  by_cases he : e.error.isSome
  · rw [if_pos he]
  rw [if_neg he]
  split
  · rw [assembler_fail]
  · have hhead := additions_bytes e.assembler f.head
    dsimp only
    split
    · exact hhead.trans ((additions_bytes _ _).trans (additions_bytes _ _))
    next m hm =>
      have hmemory := additions_memory (e.bytes f.head) f.field.low m f.immediate.length
      split
      next e' misuse h =>
        rw [h] at hmemory
        exact hhead.trans hmemory
      next e' h =>
        rw [h] at hmemory
        exact hhead.trans (hmemory.trans (additions_bytes _ _))

theorem assembler_immediateBytes (e : Emitter) (w : Width) (v : ℤ) :
    (e.immediateBytes w v).1.assembler = e.assembler := by
  unfold Emitter.immediateBytes
  split
  · rfl
  · exact assembler_fail e _

theorem additions_formWith (e : Emitter) (w : Width) (v : ℤ) (f : Bytes → Form) :
    Additions e.assembler (e.formWith w v f).1.assembler := by
  rw [← assembler_immediateBytes e w v]
  exact additions_form _ _

theorem additions_shortForm (e : Emitter) (w : Width) (opcode : UInt8) (r : Register) :
    Additions e.assembler (e.shortForm w opcode r).assembler := by
  unfold Emitter.shortForm
  by_cases he : e.error.isSome
  · rw [if_pos he]
  rw [if_neg he]
  by_cases hr : r.existsIn e.mode
  · rw [if_pos hr]
    exact additions_bytes _ _
  · rw [if_neg hr, assembler_fail]

theorem additions_shortFormWith (e : Emitter) (w : Width) (opcode : UInt8) (r : Register) (v : ℤ) :
    Additions e.assembler (e.shortFormWith w opcode r v).assembler := by
  rw [← assembler_immediateBytes e w v]
  unfold Emitter.shortFormWith
  dsimp only
  split_ifs
  · exact (additions_shortForm _ _ _ _).trans (additions_bytes _ _)
  · exact additions_shortForm _ _ _ _

theorem additions_jump (e : Emitter) (opcode : Bytes) (size : ℕ) (patch : Patch) (l : ℤ) :
    Additions e.assembler (e.jump opcode size patch l).assembler := by
  unfold Emitter.jump
  split_ifs
  · exact (additions_bytes _ _).trans (additions_relocate _ _ _ _)
  · exact .refl

/-- An instruction adds bytes, a field and at most a label, even one that cannot be encoded. -/
theorem additions_emit (e : Emitter) (i : Instruction) :
    Additions e.assembler (e.emit i).1.assembler := by
  cases i with
  | mov | load | loadZero | loadSign | alu | test | inc | dec | neg | div | shl | shr | lea
  | jmpMemory => exact additions_form _ _
  | testImmediate => exact additions_formWith _ _ _ _
  | aluImmediate op w dst v =>
    simp only [Emitter.emit]
    split_ifs
    · exact additions_formWith _ _ _ _
    · exact additions_form _ _
    · exact additions_formWith _ _ _ _
  | imul w dst src v =>
    simp only [Emitter.emit]
    split_ifs
    · exact additions_form _ _
    · exact additions_formWith _ _ _ _
  | movImmediate w dst v =>
    cases dst with
    | memory m => exact additions_formWith _ _ _ _
    | register r =>
      simp only [Emitter.emit]
      split_ifs
      · exact additions_formWith _ _ _ _
      · exact additions_shortFormWith _ _ _ _ _
  | push | pop => exact additions_shortForm _ _ _ _
  | ret =>
    simp only [Emitter.emit, Emitter.ret]
    split_ifs
    · exact additions_bytes _ _
    · exact .refl
  | jmp | jmpShort | jcc | jccShort | call => exact additions_jump _ _ _ _ _
  | address l =>
    simp only [Emitter.emit, Emitter.address]
    split_ifs
    · exact .refl
    · exact additions_relocate _ _ _ _
    · exact additions_relocate _ _ _ _

end Emitting

theorem changes_apply (a : Assembler) (x : Edit) : Changes a (x.apply a) := by
  cases x with
  | bytes bs | word k n | pad n fill => exact (additions_bytes _ _).changes
  | align n fill =>
    simp only [Edit.apply, align]
    split_ifs
    · exact .refl
    · exact (additions_bytes _ _).changes
  | newLabel | external => exact .single (.label a trivial)
  | here => exact .single (.label a (le_refl a.size))
  | define l =>
    simp only [Edit.apply]
    cases h : a.define l with
    | error misuse => exact .refl
    | ok b => exact .single (.define h)
  | relative base delta =>
    simp only [Edit.apply]
    cases h : a.relative base delta with
    | error misuse => exact .refl
    | ok x => exact (additions_relative h).changes
  | exportAs name l => exact .single (.exportAs a name l)
  | relocate size patch target => exact (additions_relocate _ _ _ _).changes
  | emit mode i => exact (additions_emit { mode, assembler := a } i).changes

/-- Whatever is done to code is done by changes, so that what each of them keeps is kept. -/
theorem changes_edited (a : Assembler) (edits : List Edit) : Changes a (a.edited edits) := by
  induction edits generalizing a with
  | nil => exact .refl
  | cons x rest ih => exact (changes_apply a x).trans (ih (x.apply a))

/-- Fields stand one behind the other between two places. -/
def Laid (low high : ℕ) : List Relocation → Prop
  | [] => low ≤ high
  | r :: rest => low ≤ r.offset ∧ Laid (r.offset + r.size.toNat) high rest

theorem Laid.le {low high : ℕ} {rs : List Relocation} (h : Laid low high rs) : low ≤ high := by
  induction rs generalizing low with
  | nil => exact h
  | cons r rest ih =>
    have := ih h.2
    have := h.1
    omega

theorem Laid.append {low mid high : ℕ} {rs ts : List Relocation} (h : Laid low mid rs)
    (h' : Laid mid high ts) :
    Laid low high (rs ++ ts) := by
  induction rs generalizing low with
  | nil =>
    cases ts with
    | nil => exact le_trans h h'
    | cons t ts => exact ⟨le_trans h h'.1, h'.2⟩
  | cons r rest ih => exact ⟨h.1, ih h.2⟩

structure Grows (a b : Assembler) : Prop where
  code : a.code.toList <+: b.code.toList
  relocations : ∃ more, b.relocations.toList = a.relocations.toList ++ more ∧
    Laid a.size b.size more
  labels : ∀ l x, a.binding? l = some x → x ≠ .unbound → b.binding? l = some x

theorem Grows.refl (a : Assembler) : Grows a a :=
  ⟨List.prefix_refl _, ⟨[], (List.append_nil _).symm, le_refl a.size⟩, fun _ _ h _ => h⟩

theorem Grows.trans (h : Grows a b) (h' : Grows b c) : Grows a c := by
  obtain ⟨xs, hxs, hlx⟩ := h.relocations
  obtain ⟨ys, hys, hly⟩ := h'.relocations
  refine ⟨h.code.trans h'.code, ⟨xs ++ ys, ?_, hlx.append hly⟩, fun l x hl hx => ?_⟩
  · rw [hys, hxs, List.append_assoc]
  · exact h'.labels l x (h.labels l x hl hx) hx

/-- Bytes alone add no fields. -/
theorem grows_bytes (a : Assembler) (bs : Bytes) : Grows a (a.bytes bs) := by
  refine ⟨?_, ⟨[], (List.append_nil _).symm, ?_⟩, fun _ _ h _ => h⟩
  · simp [bytes]
  · simp [Laid, size, bytes, Emitter.size_append_bytes]

theorem grows_relocate (a : Assembler) (size : ℤ) (patch : Patch) (target : ℤ) :
    Grows a (a.relocate size patch target) := by
  refine ⟨?_, ⟨[{ patch, target, offset := a.size, size }], ?_, le_rfl, ?_⟩, fun _ _ h _ => h⟩
  · simp [relocate, pad, bytes]
  · simp [relocate, pad, bytes]
  · simp [Laid, Assembler.size, relocate, pad, bytes, Emitter.size_append_bytes]

theorem grows_addLabel (a : Assembler) (x : Binding) : Grows a (a.addLabel x).1 := by
  refine ⟨List.prefix_refl _, ⟨[], (List.append_nil _).symm, le_refl a.size⟩, fun l y hl _ => ?_⟩
  have hlt := (lt_of_binding?_isSome (Option.isSome_of_eq_some hl)).2
  rw [binding?_addLabel, if_neg hlt.ne, hl]

theorem grows_define {l : ℤ} (h : a.define l = .ok b) : Grows a b := by
  obtain ⟨hl, rfl⟩ := define_eq_ok h
  refine ⟨List.prefix_refl _, ⟨[], (List.append_nil _).symm, le_refl a.size⟩, fun k x hk hx => ?_⟩
  rw [binding?_define h, if_neg, hk]
  rintro rfl
  exact hx (Option.some.inj (hk.symm.trans hl))

theorem grows_exportAs (a : Assembler) (name : String) (l : ℤ) : Grows a (a.exportAs name l) := by
  unfold exportAs
  split_ifs <;>
    exact ⟨List.prefix_refl _, ⟨[], (List.append_nil _).symm, le_refl a.size⟩, fun _ _ h _ => h⟩

theorem Change.grows (h : Change a b) : Grows a b := by
  cases h with
  | bytes bs => exact grows_bytes a bs
  | relocate size patch target => exact grows_relocate a size patch target
  | label hx => exact grows_addLabel a _
  | define h => exact grows_define h
  | exportAs name l => exact grows_exportAs a name l

theorem Changes.grows (h : Changes a b) : Grows a b := by
  induction h with
  | refl => exact .refl a
  | tail _ hstep ih => exact ih.trans hstep.grows

/-- Edited code goes on from the code that was there. -/
theorem grows_edited (a : Assembler) (edits : List Edit) : Grows a (a.edited edits) :=
  (changes_edited a edits).grows

section Patching

variable {base : UInt64} {buffer image : Array UInt8} {front back : Bytes}
  {rs : List Relocation} {low high : ℕ}

theorem writeAt_front {bs : Bytes} {o : ℕ} (hb : buffer.toList = front ++ back)
    (ho : o + bs.length ≤ front.length) :
    ∃ front', front'.length = front.length ∧ (writeAt buffer o bs).toList = front' ++ back := by
  induction bs generalizing buffer front o with
  | nil => exact ⟨front, rfl, hb⟩
  | cons x rest ih =>
    rw [List.length_cons] at ho
    have hset : (buffer.setIfInBounds o x).toList = front.set o x ++ back := by
      rw [Array.toList_setIfInBounds, hb, List.set_append_left _ _ (by omega)]
    obtain ⟨front', hlen, hwrite⟩ := @ih _ _ (o + 1) hset (by rw [List.length_set]; omega)
    exact ⟨front', by rw [hlen, List.length_set], hwrite⟩

theorem writeAt_back {bs : Bytes} {o : ℕ} (hb : buffer.toList = front ++ back)
    (ho : front.length ≤ o) :
    ∃ back', (writeAt buffer o bs).toList = front ++ back' := by
  induction bs generalizing buffer back o with
  | nil => exact ⟨back, hb⟩
  | cons x rest ih =>
    have hset : (buffer.setIfInBounds o x).toList = front ++ back.set (o - front.length) x := by
      rw [Array.toList_setIfInBounds, hb, List.set_append_right _ _ ho]
    exact ih hset (by omega)

/-- A field that was filled in, with its target and its bytes, which took no more than its room. -/
theorem patchField_eq_ok {r : Relocation} (h : a.patchField base buffer r = .ok image) :
    ∃ target bs, a.resolve r.target base = .ok target ∧
      r.patch.field target (r.source base) = .ok bs ∧
      image = writeAt buffer r.offset bs ∧ bs.length ≤ r.size.toNat := by
  unfold patchField at h
  split at h
  · cases h
  next target htarget =>
    by_cases hneg : r.size < 0
    · rw [if_pos hneg] at h
      cases h
    rw [if_neg hneg] at h
    split at h
    · cases h
    next bs hbs =>
      split_ifs at h with hroom
      cases h
      have hlen := Program.length_field hbs
      exact ⟨target, bs, htarget, hbs, rfl, by omega⟩

/-- Fields before a place leave what is behind it. -/
theorem patchFields_front (hb : buffer.toList = front ++ back) (hr : Laid low high rs)
    (hh : high ≤ front.length) (h : a.patchFields base buffer rs = (image, none)) :
    ∃ front', front'.length = front.length ∧ image.toList = front' ++ back := by
  induction rs generalizing buffer front low with
  | nil =>
    cases h
    exact ⟨front, rfl, hb⟩
  | cons r rest ih =>
    rw [patchFields] at h
    split at h
    next patched hp =>
      obtain ⟨_, bs, -, -, rfl, hlen⟩ := patchField_eq_ok hp
      have hle := hr.2.le
      obtain ⟨front', hlen', hwrite⟩ := @writeAt_front buffer front back bs r.offset hb (by omega)
      obtain ⟨front'', hlen'', himage⟩ := ih hwrite hr.2 (by omega) h
      exact ⟨front'', hlen''.trans hlen', himage⟩
    · cases h

/-- Fields behind a place leave what is before it. -/
theorem patchFields_back (hb : buffer.toList = front ++ back) (hr : Laid low high rs)
    (hl : front.length ≤ low) (h : a.patchFields base buffer rs = (image, none)) :
    ∃ back', image.toList = front ++ back' := by
  induction rs generalizing buffer back low with
  | nil =>
    cases h
    exact ⟨back, hb⟩
  | cons r rest ih =>
    rw [patchFields] at h
    split at h
    next patched hp =>
      obtain ⟨_, bs, -, -, rfl, -⟩ := patchField_eq_ok hp
      obtain ⟨hlow, hrest⟩ := hr
      obtain ⟨back', hwrite⟩ := @writeAt_back buffer front back bs r.offset hb (by omega)
      exact ih hwrite hrest (by omega) h
    · cases h

theorem patchFields_append_eq {xs ys : List Relocation}
    (h : a.patchFields base buffer (xs ++ ys) = (image, none)) :
    ∃ between, a.patchFields base buffer xs = (between, none) ∧
      a.patchFields base between ys = (image, none) := by
  rw [Program.patchFields_append] at h
  split at h
  next between hx => exact ⟨between, hx, h⟩
  · cases h

theorem Grows.laid (h : Grows {} a) : Laid 0 a.size a.relocations.toList := by
  obtain ⟨more, hmore, hlaid⟩ := h.relocations
  exact hmore ▸ hlaid

/-- What linking copies before it fills in fields. -/
theorem toList_copied (h : ¬ buffer.size < a.size) :
    (writeAt buffer 0 a.code.toList).toList = a.code.toList ++ buffer.toList.drop a.size := by
  have hwrite :=
    @Program.toList_writeAt buffer [] (buffer.toList.take a.size) (buffer.toList.drop a.size)
    a.code.toList (by simp) (by simpa [size] using h)
  simpa using hwrite

/-- Linking copies the code, fills in the fields and looks up the exported names; each of these can
fail. -/
theorem flush_eq_ok_iff {globals : List (String × UInt64)} :
    a.flush buffer base = (image, .ok globals) ↔
    a.size ≤ buffer.size ∧
      a.patchFields base (writeAt buffer 0 a.code.toList) a.relocations.toList = (image, none) ∧
      a.globalAddresses base a.globals = .ok globals := by
  unfold flush
  by_cases hshort : buffer.size < a.size
  · simp [hshort, Nat.not_le.2 hshort]
  · rw [if_neg hshort]
    dsimp only
    split
    next patched e hp => simp [hp]
    next patched hp => simp [hp, Nat.le_of_not_lt hshort]

/-- Linked code holds every shape that was put into it, with the field that its label gives. -/
theorem flush_shape {s : X86.Shape} {globals : List (String × UInt64)} (ha : Grows {} a)
    (hcode : b.code.toList = a.code.toList ++ s.raw)
    (hrelocations : b.relocations.toList = a.relocations.toList ++ s.relocations a.size)
    (hc : Grows b c) (h : c.flush buffer base = (image, .ok globals)) :
    ∃ bs, Program.fieldAt? c base (a.size, s) = some bs ∧
      (image.toList.drop a.size).take s.size = s.fill bs := by
  have hb : b.size = a.size + s.size := by
    rw [size, ← Array.length_toList, hcode, List.length_append, s.length_raw,
      Array.length_toList, size]
  obtain ⟨hlong, hp, -⟩ := flush_eq_ok_iff.1 h
  obtain ⟨tail, htail⟩ := hc.code
  obtain ⟨more, hmore, hlaid⟩ := hc.relocations
  have hcopied : (writeAt buffer 0 c.code.toList).toList =
      a.code.toList ++ (s.raw ++ (tail ++ buffer.toList.drop c.size)) := by
    rw [toList_copied (Nat.not_lt.2 hlong), ← htail, hcode, List.append_assoc, List.append_assoc]
  rw [hmore, hrelocations, List.append_assoc] at hp
  obtain ⟨before, hbefore, hp⟩ := patchFields_append_eq hp
  obtain ⟨filled, hfilled, hp⟩ := patchFields_append_eq hp
  -- the fields before the shape, its own, and those behind it
  obtain ⟨front, hfront, hbytes⟩ := patchFields_front hcopied ha.laid le_rfl hbefore
  have hlen : front.length = a.size := hfront.trans Array.length_toList
  have hshape := @Program.patchFields_shape c base before front _ s hbytes
  rw [hlen] at hshape
  cases hf : Program.fieldAt? c base (a.size, s) with
  | none =>
    rw [hf, hfilled] at hshape
    exact absurd rfl hshape
  | some bs =>
    rw [hf] at hshape
    obtain ⟨_, heq, hfill⟩ := hshape
    rw [hfilled] at heq
    cases heq
    have hsize : (s.fill bs).length = s.size := s.length_fill (Program.fieldAt?_some hf).1
    rw [← List.append_assoc] at hfill
    obtain ⟨back, himage⟩ := patchFields_back hfill hlaid
      (by rw [List.length_append, hlen, hsize, hb]) hp
    refine ⟨bs, rfl, ?_⟩
    rw [himage, List.append_assoc, ← hlen, List.drop_left, ← hsize, List.take_left]

end Patching

end PortCodec.Assembler
