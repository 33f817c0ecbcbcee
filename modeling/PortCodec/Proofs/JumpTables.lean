import PortCodec.Proofs.PlanInvariant
import PortCodec.Proofs.RelocatableProgram
import PortCodec.Proofs.Running.Access

/-! The two tables of a linked program. Every slot holds the address where the code of its control
begins, or where the routine ends if nothing is stored for the control. No stored control shares
that address with another slot, the tables share none, and none is inside a table. -/

namespace PortCodec.Program

open X86 Assembly

structure Accessor where
  name : String
  table : Mark
  done : Mark
  entry : ℕ → Mark
  body : Target → Entry → List Item
  routine : Target → Option (List Item)

namespace Accessor

def reading : Accessor where
  name := "read_table"
  table := .readTable
  done := .readEnd
  entry := .readEntry
  body := Target.readEntry
  routine := Target.read

def writing : Accessor where
  name := "write_table"
  table := .writeTable
  done := .writeEnd
  entry := .writeEntry
  body := Target.writeEntry
  routine := Target.write

def target (x : Accessor) (n : ℕ) (e : Entry) : Mark := if e.isStored then x.entry n else x.done

/-- What stands behind that mark: the code of a stored control, or the end of the routine. -/
def piece (x : Accessor) (t : Target) (n : ℕ) (e : Entry) : List Item :=
  .mark (x.target n e) :: if e.isStored then x.body t e else t.leave

end Accessor

/-- A piece of the program begins at a place: so many bytes are written before it. -/
def StartsAt (t : Target) (piece : List Item) (o : ℕ) : Prop :=
  ∃ before after, t.items? = some (before ++ piece ++ after) ∧
    (placeAll { mode := t.mode, assembler := prepared t.layout } before).1.assembler.size = o

def slotWord (t : Target) (image : Array UInt8) (d : DataRange) (n : ℕ) : ℕ :=
  Bytes.toNatLE ((image.toList.drop (d.start + t.pointer.size * n)).take t.pointer.size)

structure Serves (t : Target) (base : UInt64) (image : Array UInt8)
    (globals : List (String × UInt64)) (x : Accessor) (d : DataRange) : Prop where
  name : d.name = x.name
  aligned : t.pointer.size ∣ d.start
  length : d.stop = d.start + t.pointer.size * (t.layout.controllers * t.layout.stride)
  inside : d.stop ≤ image.size
  exported : (x.name, base + UInt64.ofNat d.start) ∈ globals
  /-- The routine returns in one place only. -/
  epilogue : ∃ before, x.routine t = some (before ++ .mark x.done :: t.leave) ∧ .code .ret ∉ before
  slots : ∀ k < t.layout.controllers, ∀ i < t.layout.stride, ∃ e o,
    t.layout.index[k * t.layout.stride + i]? = some e ∧
    StartsAt t (x.piece t (k * t.layout.stride + i) e) o ∧
    slotWord t image d (k * t.layout.stride + i) = (base + UInt64.ofNat o).toNat
  distinct : ∀ n e, t.layout.index[n]? = some e → e.isStored = true →
    ∀ n' < t.layout.index.length, n ≠ n' → slotWord t image d n ≠ slotWord t image d n'

/-- The data of a program are the two tables. They lead to no data, and never to the same place. -/
structure JumpTables (t : Target) (data : List DataRange) (base : UInt64) (image : Array UInt8)
    (globals : List (String × UInt64)) : Prop where
  tables : List.Forall₂ (Serves t base image globals) [.reading, .writing] data
  outside : ∀ d ∈ data, ∀ n < t.layout.index.length, ∀ d' ∈ data, ∀ o, d'.start ≤ o → o < d'.stop →
    slotWord t image d n ≠ (base + UInt64.ofNat o).toNat
  apart : data.Pairwise fun d d' => ∀ n < t.layout.index.length, ∀ n' < t.layout.index.length,
    slotWord t image d n ≠ slotWord t image d' n'

variable {t : Target} {a : Assembler} {base : UInt64} {m m' : Mark} {o o' : ℕ}

section Places

theorem dvd_add_padding {n : ℕ} (hn : 0 < n) (o : ℕ) : n ∣ o + padding n o := by
  have hlt := Nat.mod_lt o hn
  apply Nat.dvd_of_mod_eq_zero
  unfold padding
  split_ifs with h
  · rcases h with h | h
    · obtain rfl : n = 1 := by omega
      exact Nat.mod_one _
    · exact h
  · have hsum : o + (n - o % n) = n * (o / n + 1) := by
      have := Nat.div_add_mod o n
      rw [Nat.mul_add_one]
      omega
    rw [hsum, Nat.mul_mod_right]

def Leads (t : Target) (m : Mark) (o : ℕ) : Prop :=
  ∃ before i after, t.routines = before ++ .mark m :: .code i :: after ∧ behind t.mode 0 before = o

theorem lt_behind {mode : Mode} {i : Instruction} (hi : (Item.code i).Encodable mode) (o : ℕ)
    (rest : List Item) : o < behind mode o (.mark m :: .code i :: rest) := by
  obtain ⟨⟨s, hs⟩, -⟩ := hi
  have hpos := Instruction.shape_pos hs
  have hle := @le_behind mode (o + s.size) rest
  simp only [behind, Item.shape, hs, Except.toOption, Option.getD_some]
  exact (Nat.lt_add_of_pos_right hpos).trans_le hle

theorem encodable_routines (hc : t.convention ∈ Convention.all) {i : Item} (hi : i ∈ t.routines) :
    i.Encodable t.mode := by
  apply (linkable_items hc).encodable
  rw [Target.items_eq]
  exact List.mem_append_left _ hi

/-- Two marks that have code right behind them, and no room between them, are one. -/
theorem mark_eq_of_behind {mode : Mode} {i j : Instruction} {s r r' : List Item}
    (h : .mark m :: .code i :: r = s ++ .mark m' :: .code j :: r')
    (hi : (Item.code i).Encodable mode) (ho : behind mode o s = o) : m = m' := by
  rcases s with _ | ⟨x, _ | ⟨y, s⟩⟩
  · cases h
    rfl
  · cases h
  · obtain ⟨rfl, rfl, -⟩ : .mark m = x ∧ .code i = y ∧ _ := by simpa using h
    exact absurd ho (lt_behind hi o s).ne'

/-- Only one mark leads to a place. -/
theorem Leads.mark_eq (hc : t.convention ∈ Convention.all) (h : Leads t m o) (h' : Leads t m' o) :
    m = m' := by
  obtain ⟨b, i, r, hb, rfl⟩ := h
  obtain ⟨b', j, r', hb', ho⟩ := h'
  have hi : (Item.code i).Encodable t.mode := encodable_routines hc (by simp [hb])
  have hj : (Item.code j).Encodable t.mode := encodable_routines hc (by simp [hb'])
  rcases List.append_eq_append_iff.1 (hb.symm.trans hb') with ⟨s, rfl, hs⟩ | ⟨s, rfl, hs⟩
  · rw [behind_append] at ho
    exact mark_eq_of_behind hs hi ho
  · rw [behind_append] at ho
    exact (mark_eq_of_behind hs hj ho.symm).symm

theorem Leads.lt (hc : t.convention ∈ Convention.all) (h : Leads t m o) :
    o < behind t.mode 0 t.routines := by
  obtain ⟨before, i, after, hsplit, rfl⟩ := h
  have hi : (Item.code i).Encodable t.mode := encodable_routines hc (by simp [hsplit])
  rw [hsplit, behind_append]
  exact lt_behind hi _ _

theorem Leads.mem_bound (h : Leads t m o) : (m, o) ∈ bound t.mode 0 t.items := by
  obtain ⟨before, i, after, hsplit, rfl⟩ := h
  rw [Target.items_eq, hsplit, bound_append, bound_append]
  simp [bound]

/-- In an image that is not too long, an address is that of one place. -/
theorem address_inj (ho : o < 2 ^ 64) (ho' : o' < 2 ^ 64)
    (h : (base + UInt64.ofNat o).toNat = (base + UInt64.ofNat o').toNat) : o = o' := by
  simp only [UInt64.toNat_add, UInt64.toNat_ofNat'] at h
  omega

end Places

section Accessors

variable {x : Accessor}

/-- Where the parts of an accessor are, among the items of a program. -/
structure Accessor.Stands (x : Accessor) (t : Target) : Prop where
  routine : ∃ before, x.routine t = some (before ++ .mark x.done :: t.leave) ∧
    .code .ret ∉ before ∧ t.entries x.entry (x.body t) <:+: before ∧
    before ++ .mark x.done :: t.leave <:+: t.routines
  table : t.table x.table x.done x.entry <:+:
    t.table .readTable .readEnd .readEntry ++ t.table .writeTable .writeEnd .writeEntry
  exported : (x.name, x.table) ∈ exports
  body : ∀ e, ∃ i rest, x.body t e = .code i :: rest
  entry : Function.Injective x.entry
  done : ∀ n, x.entry n ≠ x.done

theorem leave_eq_cons (t : Target) : ∃ i rest, t.leave = .code i :: rest := by
  unfold Target.leave
  rcases t.frame.saved.reverse with _ | ⟨r, rs⟩
  · exact ⟨.ret, [], rfl⟩
  · exact ⟨.pop r, _, rfl⟩

/-- Every slot has a place that it leads to, where its piece begins. -/
theorem Accessor.Stands.leads (hx : x.Stands t) (hc : t.convention ∈ Convention.all)
    {n : ℕ} {e : Entry} (he : t.layout.index[n]? = some e) :
    ∃ o, Leads t (x.target n e) o ∧ StartsAt t (x.piece t n e) o := by
  obtain ⟨front, -, -, hentries, hroutine⟩ := hx.routine
  have hpiece : x.piece t n e <:+: t.routines := by
    refine List.IsInfix.trans ?_ hroutine
    unfold Accessor.piece Accessor.target
    split_ifs with hstored
    · exact ((entry_isInfix he hstored).trans hentries).trans (List.prefix_append _ _).isInfix
    · exact (List.suffix_append _ _).isInfix
  have hcode : ∃ i rest, x.piece t n e = .mark (x.target n e) :: .code i :: rest := by
    unfold Accessor.piece
    split_ifs
    · obtain ⟨i, rest, h⟩ := hx.body e
      exact ⟨i, rest, by rw [h]⟩
    · obtain ⟨i, rest, h⟩ := leave_eq_cons t
      exact ⟨i, rest, by rw [h]⟩
  obtain ⟨before, after, hsplit⟩ := hpiece
  obtain ⟨i, rest, hi⟩ := hcode
  have hitems :
      t.items = before ++ x.piece t n e ++ (after ++ (t.table .readTable .readEnd .readEntry ++
      t.table .writeTable .writeEnd .writeEntry)) := by
    rw [Target.items_eq, ← hsplit, List.append_assoc]
  refine ⟨behind t.mode 0 before, ⟨before, i, rest ++ after, ?_, rfl⟩,
    before, after ++
      (t.table .readTable .readEnd .readEntry ++ t.table .writeTable .writeEnd .writeEntry),
    ?_, ?_⟩
  · rw [← hsplit, hi, List.append_assoc]
    rfl
  · rw [Target.items?_eq hc, hitems]
  · rw [placeAll_front hc ⟨_, by rw [hitems, List.append_assoc]⟩]
    exact size_appended _ _

theorem ret_notMem_arguments (hc : t.convention ∈ Convention.all) {dsts : List Register}
    (hd : dsts ∈ t.wanted) : .code .ret ∉ t.arguments dsts := by
  rw [arguments_eq hc hd, List.mem_map]
  rintro ⟨⟨r, v⟩, -, h⟩
  cases v <;> simp [bring] at h

theorem ret_notMem_dispatch (table done : Mark) : .code .ret ∉ t.dispatch table done := by
  simp only [Target.dispatch]
  split_ifs <;> simp

theorem ret_notMem_entries (m : ℕ → Mark) {body : Entry → List Item}
    (h : ∀ e, .code .ret ∉ body e) :
    .code .ret ∉ t.entries m body := by
  simp only [Target.entries, List.mem_flatMap, not_exists, not_and]
  intro p _
  split_ifs <;> simp [h]

theorem reading_stands (hc : t.convention ∈ Convention.all) : Accessor.reading.Stands t where
  routine := by
    refine ⟨t.entry .read ++ [.code (.alu .xor .dword .rax .rax)] ++
      t.arguments [t.frame.state, t.frame.controller, t.frame.control] ++
      t.dispatch .readTable .readEnd ++ t.entries .readEntry t.readEntry, ?_, ?_,
      (List.suffix_append _ _).isInfix, t.serializeItems ++ t.deserializeItems,
      t.writeItems ++ t.formatAxis ++ t.parseAxis ++ t.skipField, ?_⟩
    · simp [Accessor.reading, Target.read, (loadArguments_eq hc t.wanted_read).1]
    · have hbody (e : Entry) : .code .ret ∉ t.readEntry e := by
        simp only [Target.readEntry]
        split_ifs <;> simp
      simp [Target.entry, ret_notMem_arguments hc t.wanted_read, ret_notMem_dispatch,
        ret_notMem_entries _ hbody]
    · simp [Accessor.reading, Target.routines, Target.readItems]
  table := (List.prefix_append _ _).isInfix
  exported := by decide
  body := by
    intro e
    simp only [Accessor.reading, Target.readEntry]
    split_ifs <;> exact ⟨_, _, rfl⟩
  entry := by
    rintro n n' ⟨⟩
    rfl
  done := by simp [Accessor.reading]

theorem writing_stands (hc : t.convention ∈ Convention.all) : Accessor.writing.Stands t where
  routine := by
    refine ⟨t.entry .write ++
      t.arguments [t.frame.state, t.frame.controller, t.frame.control, t.frame.value] ++
      t.dispatch .writeTable .writeEnd ++ t.entries .writeEntry t.writeEntry, ?_, ?_,
      (List.suffix_append _ _).isInfix, t.serializeItems ++ t.deserializeItems ++ t.readItems,
      t.formatAxis ++ t.parseAxis ++ t.skipField, ?_⟩
    · simp [Accessor.writing, Target.write, (loadArguments_eq hc t.wanted_write).1]
    · have hbody (e : Entry) : .code .ret ∉ t.writeEntry e := by
        simp only [Target.writeEntry]
        split_ifs <;> simp
      simp [Target.entry, ret_notMem_arguments hc t.wanted_write, ret_notMem_dispatch,
        ret_notMem_entries _ hbody]
    · simp [Accessor.writing, Target.routines, Target.writeItems]
  table := (List.suffix_append _ _).isInfix
  exported := by decide
  body := by
    intro e
    simp only [Accessor.writing, Target.writeEntry]
    split_ifs <;> exact ⟨_, _, rfl⟩
  entry := by
    rintro n n' ⟨⟩
    rfl
  done := by simp [Accessor.writing]

theorem reading_target_ne_writing (n n' : ℕ) (e e' : Entry) :
    Accessor.reading.target n e ≠ Accessor.writing.target n' e' := by
  unfold Accessor.target
  split_ifs <;> simp [Accessor.reading, Accessor.writing]

end Accessors

section Words

variable {x y : Accessor} {image : Array UInt8} {globals : List (String × UInt64)} {l : ℤ}
  {n n' : ℕ} {e e' : Entry}

/-- An address in the code, in as many bytes as the mode has for it. -/
theorem linkedAt_address {mode : Mode} (hmode : mode = .bits32 ∨ mode = .bits64)
    (hl : a.binding? l = some (.inside o)) {k : ℕ}
    (hf : (fieldAt? a base (k, (Item.code (.address l)).shape mode k)).isSome) :
    linkedAt a base (k, (Item.code (.address l)).shape mode k) =
        Bytes.littleEndian mode.pointer.size (base + UInt64.ofNat o).toNat ∧
      (base + UInt64.ofNat o).toNat < 256 ^ mode.pointer.size := by
  obtain ⟨bs, hbs⟩ := Option.isSome_iff_exists.1 hf
  obtain ⟨-, hfield⟩ := fieldAt?_some hbs
  rw [linkedAt, hbs, Option.getD_some]
  rcases hmode with rfl | rfl
  · obtain ⟨target, htarget, hvalue⟩ := hfield .abs32 l rfl
    cases (resolve_inside hl).symm.trans htarget
    -- that the field could be filled in means that the address fits
    unfold Patch.field at hvalue
    dsimp only at hvalue
    split_ifs at hvalue with hlt
    cases hvalue
    exact ⟨List.append_nil _, hlt⟩
  · obtain ⟨target, htarget, hvalue⟩ := hfield .abs64 l rfl
    cases (resolve_inside hl).symm.trans htarget
    cases hvalue
    exact ⟨List.append_nil _, UInt64.toNat_lt _⟩

/-- The number that an address in the code leaves in the image. -/
theorem Compiled.word (h : Compiled t a) (hc : t.convention ∈ Convention.all)
    (hlink : a.link base = .ok (image, globals)) {before after : List Item}
    (hsplit : t.items = before ++ .code (.address l) :: after)
    (hl : a.binding? l = some (.inside o)) :
    Bytes.toNatLE ((image.toList.drop (behind t.mode 0 before)).take t.pointer.size) =
      (base + UInt64.ofNat o).toNat := by
  obtain ⟨hf, -, himage⟩ := (link_eq_ok_iff h.carries).1 hlink
  rw [hsplit, placed_append] at hf himage
  have hlen := length_linked fun p hp => hf p (List.mem_append_left _ hp)
  rw [Nat.zero_add] at hlen
  obtain ⟨hbytes, hlt⟩ := linkedAt_address (mode_cases hc) hl
    (hf _ (List.mem_append_right _ (List.mem_cons_self ..)))
  rw [himage, List.flatMap_append, List.drop_left' hlen, placed, List.flatMap_cons, hbytes,
    Target.pointer, List.take_left' (Bytes.littleEndian_length ..), Bytes.toNatLE_littleEndian,
    Nat.mod_eq_of_lt hlt]

/-- The table of an accessor begins at a place, behind all routines. -/
def Accessor.TableAt (x : Accessor) (t : Target) (o : ℕ) : Prop :=
  ∃ before after, t.items = before ++ (t.table x.table x.done x.entry ++ after) ∧
    behind t.mode 0 t.routines ≤ behind t.mode 0 before ∧
    o = behind t.mode 0 before + padding t.pointer.size (behind t.mode 0 before)

theorem Accessor.TableAt.behind_le (h : x.TableAt t o) : behind t.mode 0 t.routines ≤ o := by
  obtain ⟨before, after, -, hle, rfl⟩ := h
  exact hle.trans (Nat.le_add_right _ _)

theorem Accessor.TableAt.dvd (h : x.TableAt t o) : t.pointer.size ∣ o := by
  obtain ⟨before, after, -, -, rfl⟩ := h
  refine dvd_add_padding ?_ _
  cases t.pointer <;> decide

theorem Accessor.TableAt.le_codeSize (h : x.TableAt t o) (hc : t.convention ∈ Convention.all) :
    o + t.pointer.size * t.layout.index.length ≤ t.codeSize := by
  obtain ⟨before, after, hsplit, -, rfl⟩ := h
  rw [codeSize_eq hc, hsplit, behind_append, behind_append, behind_tableOf]
  exact le_behind _ _

theorem Accessor.TableAt.mem_bound (h : x.TableAt t o) : (x.table, o) ∈ bound t.mode 0 t.items := by
  obtain ⟨before, after, hsplit, -, rfl⟩ := h
  rw [hsplit, bound_append, bound_append]
  exact List.mem_append_right _ (List.mem_append_left _ (mem_bound_tableOf ..))

def Accessor.range (x : Accessor) (t : Target) (o : ℕ) : DataRange :=
  ⟨x.name, o, o + t.pointer.size * t.layout.index.length⟩

/-- The ranges of a program are those of the two tables. -/
theorem tables_of_compile {l : Layout} {c : Convention} {p : Program} (hc : c ∈ Convention.all)
    (hp : compile l c = .ok p) : ∃ o o', Accessor.reading.TableAt ⟨l, c⟩ o ∧
      Accessor.writing.TableAt ⟨l, c⟩ o' ∧
      p.data = [Accessor.reading.range ⟨l, c⟩ o, Accessor.writing.range ⟨l, c⟩ o'] := by
  refine ⟨_, _, ⟨_, _, Target.items_eq _, le_rfl, rfl⟩,
    ⟨Target.routines ⟨l, c⟩ ++ Target.table ⟨l, c⟩ .readTable .readEnd .readEntry, [], ?_, ?_, rfl⟩,
    compile_data hp hc⟩
  · rw [Target.items_eq, List.append_assoc, List.append_nil]
    rfl
  · rw [behind_append]
    exact le_behind _ _

/-- The slots of a table lead where their marks are. -/
theorem Compiled.slot (h : Compiled t a) (hc : t.convention ∈ Convention.all)
    (hlink : a.link base = .ok (image, globals)) (hx : x.Stands t) {d : DataRange}
    (hd : x.TableAt t d.start) (he : t.layout.index[n]? = some e) :
    ∃ o, Leads t (x.target n e) o ∧ StartsAt t (x.piece t n e) o ∧
      slotWord t image d n = (base + UInt64.ofNat o).toNat := by
  obtain ⟨o, hleads, hstarts⟩ := hx.leads hc he
  refine ⟨o, hleads, hstarts, ?_⟩
  have hlabel : (t.labels x.done x.entry)[n]? = some (x.target n e).label := by
    rw [labels_getElem?, he, Option.map_some, Accessor.target]
    split_ifs <;> rfl
  obtain ⟨before, after, hsplit, -, hstart⟩ := hd
  obtain ⟨ls, ls', hls, hlen⟩ :
      ∃ ls ls', t.labels x.done x.entry = ls ++ (x.target n e).label :: ls' ∧
      ls.length = n := ⟨_, _, Layout.split_at hlabel⟩
  -- the slots in front of this one are as long as the mode says
  have hslot : behind t.mode 0 (before ++ .align t.pointer.size :: .mark x.table ::
      ls.map fun l => .code (.address l)) = d.start + t.pointer.size * n := by
    rw [behind_append, behind, behind, behind_addresses, hlen, hstart]
    simp [Item.shape, X86.Shape.size, X86.Shape.room, Target.pointer]
  rw [slotWord, ← hslot]
  have hitems : t.items = (before ++ .align t.pointer.size :: .mark x.table ::
      ls.map fun l => .code (.address l)) ++ .code (.address (x.target n e).label) ::
        (ls'.map (fun l => .code (.address l)) ++ after) := by
    rw [hsplit, Target.table_eq, hls]
    simp
  exact h.word hc hlink hitems (h.bound _ hleads.mem_bound)

/-- Slots that lead to different marks hold different addresses. -/
theorem Compiled.slotWord_ne (h : Compiled t a) (hc : t.convention ∈ Convention.all)
    (hlink : a.link base = .ok (image, globals)) (hsize : image.size < 2 ^ 63)
    (hx : x.Stands t) (hy : y.Stands t) {d d' : DataRange} (hd : x.TableAt t d.start)
    (hd' : y.TableAt t d'.start) (he : t.layout.index[n]? = some e)
    (he' : t.layout.index[n']? = some e') (hne : x.target n e ≠ y.target n' e') :
    slotWord t image d n ≠ slotWord t image d' n' := by
  obtain ⟨o, hleads, -, hword⟩ := h.slot hc hlink hx hd he
  obtain ⟨o', hleads', -, hword'⟩ := h.slot hc hlink hy hd' he'
  have ho := hleads.lt hc
  have ho' := hleads'.lt hc
  have hroutines := hd.behind_le
  have hle := hd.le_codeSize hc
  rw [h.image_size hc hlink] at hsize
  rw [hword, hword']
  intro heq
  obtain rfl := address_inj (by omega) (by omega) heq
  exact hne (hleads.mark_eq hc hleads')

end Words

section Tables

variable {x : Accessor} {image : Array UInt8} {globals : List (String × UInt64)}

theorem Compiled.serves (h : Compiled t a) (hc : t.convention ∈ Convention.all)
    (hlink : a.link base = .ok (image, globals)) (hsize : image.size < 2 ^ 63)
    (hindex : t.layout.index.length = t.layout.controllers * t.layout.stride) (hx : x.Stands t)
    (ho : x.TableAt t o) : Serves t base image globals x (x.range t o) where
  name := rfl
  aligned := ho.dvd
  length := by rw [← hindex]; rfl
  inside := by
    rw [h.image_size hc hlink]
    exact ho.le_codeSize hc
  exported := by
    obtain ⟨-, hglobals, -⟩ := (link_eq_ok_iff h.carries).1 hlink
    rw [h.globalAddresses hc base] at hglobals
    cases hglobals
    have hmem : (x.name, base + UInt64.ofNat (codeOffset a x.table.label)) ∈ exportsAt a base :=
      List.mem_map.2 ⟨_, hx.exported, rfl⟩
    rwa [codeOffset_inside (h.bound _ ho.mem_bound)] at hmem
  epilogue := by
    obtain ⟨before, hroutine, hret, -, -⟩ := hx.routine
    exact ⟨before, hroutine, hret⟩
  slots := by
    intro k hk i hi
    have hlt : k * t.layout.stride + i < t.layout.index.length := by
      rw [hindex]
      calc k * t.layout.stride + i < (k + 1) * t.layout.stride := by rw [Nat.add_one_mul]; omega
        _ ≤ t.layout.controllers * t.layout.stride := Nat.mul_le_mul_right _ hk
    have he := List.getElem?_eq_getElem hlt
    obtain ⟨o', -, hstarts, hword⟩ := h.slot hc hlink hx (d := x.range t o) ho he
    exact ⟨_, o', he, hstarts, hword⟩
  distinct := by
    intro n e he hstored n' hn' hne
    have he' := List.getElem?_eq_getElem hn'
    refine h.slotWord_ne hc hlink hsize hx hx ho ho he he' fun htarget => ?_
    rw [Accessor.target, Accessor.target, if_pos hstored] at htarget
    split_ifs at htarget
    · exact hne (hx.entry htarget)
    · exact hx.done n htarget

/-- No slot leads into a part of the image behind the routines. -/
theorem Compiled.slotWord_outside (h : Compiled t a) (hc : t.convention ∈ Convention.all)
    (hlink : a.link base = .ok (image, globals)) (hsize : image.size < 2 ^ 63) (hx : x.Stands t)
    {d : DataRange} (hd : x.TableAt t d.start) {n k : ℕ} (hn : n < t.layout.index.length)
    (hk : behind t.mode 0 t.routines ≤ k) (hk' : k < image.size) :
    slotWord t image d n ≠ (base + UInt64.ofNat k).toNat := by
  obtain ⟨o, hleads, -, hword⟩ := h.slot hc hlink hx hd (List.getElem?_eq_getElem hn)
  have ho := hleads.lt hc
  rw [hword]
  intro heq
  have := address_inj (by omega) (by omega) heq
  omega

theorem Compiled.jumpTables (h : Compiled t a) (hc : t.convention ∈ Convention.all)
    (hlink : a.link base = .ok (image, globals)) (hsize : image.size < 2 ^ 63)
    (hindex : t.layout.index.length = t.layout.controllers * t.layout.stride)
    (ho : Accessor.reading.TableAt t o) (ho' : Accessor.writing.TableAt t o') :
    JumpTables t [Accessor.reading.range t o, Accessor.writing.range t o'] base image globals where
  tables := .cons (h.serves hc hlink hsize hindex (reading_stands hc) ho)
    (.cons (h.serves hc hlink hsize hindex (writing_stands hc) ho') .nil)
  outside := by
    intro d hd n hn d' hd' k hk hk'
    have hplace : behind t.mode 0 t.routines ≤ k ∧ k < image.size := by
      rw [h.image_size hc hlink]
      rcases List.mem_pair.1 hd' with rfl | rfl
      · exact ⟨ho.behind_le.trans hk, hk'.trans_le (ho.le_codeSize hc)⟩
      · exact ⟨ho'.behind_le.trans hk, hk'.trans_le (ho'.le_codeSize hc)⟩
    rcases List.mem_pair.1 hd with rfl | rfl
    · exact h.slotWord_outside hc hlink hsize (reading_stands hc) ho hn hplace.1 hplace.2
    · exact h.slotWord_outside hc hlink hsize (writing_stands hc) ho' hn hplace.1 hplace.2
  apart := by
    refine List.pairwise_pair.2 fun n hn n' hn' => ?_
    exact h.slotWord_ne hc hlink hsize (reading_stands hc) (writing_stands hc) ho ho'
      (List.getElem?_eq_getElem hn) (List.getElem?_eq_getElem hn')
        (reading_target_ne_writing _ _ _ _)

/-- Wherever a compiled layout can be linked, its tables match its index. The offsets of an image
are signed numbers of 64 bits, which is all that its size has to fit. -/
theorem compile_jumpTables {p : Port} {c : Convention} (hc : c ∈ Convention.all) {program : Program}
    (hcompile : compile (Layout.plan p) c = .ok program)
    (hlink : program.link base = .ok (image, globals)) (hsize : image.size < 2 ^ 63) :
    JumpTables ⟨Layout.plan p, c⟩ program.data base image globals := by
  have h := compiled_of_compile hc hcompile
  obtain ⟨o, o', ho, ho', hdata⟩ := tables_of_compile hc hcompile
  rw [hdata]
  exact h.jumpTables hc hlink hsize (Layout.plan_index_length p) ho ho'

/-- Two pads under the convention with the shorter addresses, at an address that they can reach. -/
theorem twoPads_jumpTables : Convention.cdecl ∈ Convention.all ∧
    ∃ program image globals, compile (Layout.plan Layout.twoPads) .cdecl = .ok program ∧
      program.link 65536 = .ok (image, globals) ∧ image.size < 2 ^ 63 ∧
      JumpTables ⟨Layout.plan Layout.twoPads, .cdecl⟩ program.data 65536 image globals := by
  have hc : Convention.cdecl ∈ Convention.all := by decide
  have hsize : Target.codeSize ⟨Layout.plan Layout.twoPads, .cdecl⟩ < 2 ^ 31 - 2 ^ 16 := by
    rw [@codeSize_eq ⟨Layout.plan Layout.twoPads, .cdecl⟩ hc]
    decide +kernel
  obtain ⟨program, hcompile, -, -, hcompiled⟩ :=
    compile_eq (l := Layout.plan Layout.twoPads) hc (by omega)
  obtain ⟨image, globals, hlink⟩ := @Compiled.link _ _ 65536 hcompiled hc (by omega)
    (.inr (by have : (65536 : UInt64).toNat = 65536 := rfl; omega))
  have himage : image.size < 2 ^ 63 := by
    rw [hcompiled.image_size hc hlink]
    omega
  exact ⟨hc, program, image, globals, hcompile, hlink, himage,
    compile_jumpTables hc hcompile hlink himage⟩

end Tables

end PortCodec.Program
