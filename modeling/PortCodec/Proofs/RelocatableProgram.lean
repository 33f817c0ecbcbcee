import PortCodec.Proofs.Compiling.Compiled
import PortCodec.Proofs.Linking.Relocated
import PortCodec.Proofs.FieldReading

/-! Compiling never fails on code that is short enough, and code for 64-bit mode can be moved:
wherever it is linked only the two tables and the exported addresses differ, and those by the
distance moved. -/

namespace PortCodec.Program

open X86 Assembly

variable {t : Target} {a : Assembler}

section Routines

theorem address_notMem_arguments (hc : t.convention ∈ Convention.all) {dsts : List Register}
    (hd : dsts ∈ t.wanted) (l : ℤ) : .code (.address l) ∉ t.arguments dsts := by
  intro hmem
  obtain ⟨c, ⟨⟩, -, -, -, hl⟩ := isStraight_code (loadArguments_eq hc hd).2 hmem
  cases hl

theorem address_notMem_steps (l : ℤ) (i : ℕ) (s : Step) :
    .code (.address l) ∉ t.serializeStep i s ∧ .code (.address l) ∉ t.deserializeStep i s := by
  cases s <;> simp [Target.serializeStep, Target.deserializeStep, Target.textLength, jumpOnByte]

theorem address_notMem_clearState (l : ℤ) : .code (.address l) ∉ t.clearState := by
  simp only [Target.clearState]
  split_ifs <;> simp

theorem address_notMem_dispatch (table done : Mark) (l : ℤ) :
    .code (.address l) ∉ t.dispatch table done := by
  simp only [Target.dispatch]
  split_ifs <;> simp

theorem address_notMem_entries (m : ℕ → Mark) (l : ℤ) :
    .code (.address l) ∉ t.entries m t.readEntry ∧
      .code (.address l) ∉ t.entries m t.writeEntry := by
  have hread (e : Entry) : .code (.address l) ∉ t.readEntry e := by
    simp only [Target.readEntry]
    split_ifs <;> simp
  have hwrite (e : Entry) : .code (.address l) ∉ t.writeEntry e := by
    simp only [Target.writeEntry]
    split_ifs <;> simp
  constructor <;> simp only [Target.entries, List.mem_flatMap, not_exists,
    not_and] <;> intro p _ <;> split_ifs <;> simp [hread, hwrite]

/-- The addresses are all in the tables. -/
theorem address_notMem_routines (hc : t.convention ∈ Convention.all) (l : ℤ) :
    .code (.address l) ∉ t.routines := by
  have hhelpers : .code (.address l) ∉ t.formatAxis ++ t.parseAxis ++ t.skipField := by
    simp [Target.formatAxis, Target.parseAxis, Target.skipField, jumpOnByte]
  simp only [List.mem_append, not_or] at hhelpers
  simp only [Target.routines, Target.serializeItems, Target.deserializeItems, Target.readItems,
    Target.writeItems, List.mem_append, not_or, hhelpers, address_notMem_arguments hc t.wanted_line,
    address_notMem_arguments hc t.wanted_read, address_notMem_arguments hc t.wanted_write,
    address_notMem_clearState, address_notMem_dispatch, (address_notMem_entries _ l).1,
    (address_notMem_entries _ l).2, List.mem_flatMap, not_exists, not_and,
    (address_notMem_steps l _ _).1,
    (address_notMem_steps l _ _).2]
  simp [Target.entry, Target.leave]

end Routines

section Tables

variable {base : UInt64} {table done : Mark} {m : ℕ → Mark}

theorem pointer_size (h : t.mode = .bits64) : t.pointer.size = 8 := by
  rw [Target.pointer, h]
  rfl

theorem size_address (mode : Mode) (l : ℤ) (o : ℕ) :
    ((Item.code (.address l)).shape mode o).size = mode.pointer.size := by
  cases mode <;> rfl

theorem behind_addresses (mode : Mode) (ls : List ℤ) (o : ℕ) :
    behind mode o (ls.map fun l => .code (.address l)) = o + mode.pointer.size * ls.length := by
  induction ls generalizing o with
  | nil => rfl
  | cons l ls ih =>
    rw [List.map_cons, behind, size_address, ih, List.length_cons, Nat.mul_add_one]
    omega

theorem behind_opening (t : Target) (table : Mark) (o : ℕ) :
    behind t.mode o (t.opening table) = o + padding t.pointer.size o := by
  simp [Target.opening, behind, Item.shape, X86.Shape.size, X86.Shape.room]

theorem behind_slots (t : Target) (done : Mark) (m : ℕ → Mark) (o : ℕ) :
    behind t.mode o (t.slots done m) = o + t.pointer.size * t.layout.index.length := by
  rw [Target.slots_eq, behind_addresses, Target.length_labels, Target.pointer]

theorem behind_tableOf (t : Target) (table done : Mark) (m : ℕ → Mark) (o : ℕ) :
    behind t.mode o (t.table table done m) =
      o + padding t.pointer.size o + t.pointer.size * t.layout.index.length := by
  rw [Target.table, behind_append, behind_opening, behind_slots]

theorem behind_table (h : t.mode = .bits64) (o : ℕ) :
    behind .bits64 o (t.table table done m) = o + padding 8 o + 8 * t.layout.index.length := by
  have hbehind := behind_tableOf t table done m o
  rwa [pointer_size h, h] at hbehind

theorem linkedFrom_table (h : t.mode = .bits64)
    (hb : ∀ l ∈ t.labels done m, ∃ o, a.binding? l = some (.inside o)) (base : UInt64) (o : ℕ) :
    linkedFrom .bits64 a base o (t.table table done m) =
      List.replicate (padding 8 o) 0xcc ++ addresses a base (t.labels done m) := by
  rw [Target.table_eq, pointer_size h, ← linkedFrom_addresses hb base (o + padding 8 o)]
  simp [linkedFrom, placed, linkedAt, fieldAt?, Item.shape, X86.Shape.size, X86.Shape.room,
    X86.Shape.fill]

theorem mem_bound_tableOf (t : Target) (table done : Mark) (m : ℕ → Mark) (o : ℕ) :
    (table, o + padding t.pointer.size o) ∈ bound t.mode o (t.table table done m) := by
  rw [Target.table_eq]
  simp [bound, Item.shape, X86.Shape.size, X86.Shape.room]

theorem mem_bound_table (h : t.mode = .bits64) (o : ℕ) :
    (table, o + padding 8 o) ∈ bound .bits64 o (t.table table done m) := by
  have hmem := mem_bound_tableOf t table done m o
  rwa [pointer_size h, h] at hmem

end Tables

section Images

def Target.readTableAt (t : Target) : ℕ :=
  behind .bits64 0 t.routines + padding 8 (behind .bits64 0 t.routines)

def Target.writeTableAt (t : Target) : ℕ :=
  t.readTableAt + 8 * t.layout.index.length + padding 8 (t.readTableAt + 8 * t.layout.index.length)

theorem codeSize_eq_tables (hc : t.convention ∈ Convention.all) (h64 : t.mode = .bits64) :
    t.codeSize = t.writeTableAt + 8 * t.layout.index.length := by
  rw [codeSize_eq hc, h64, Target.items_eq, behind_append, behind_append, behind_table h64,
    behind_table h64]
  rfl

/-- The tables are where their marks are. -/
theorem Compiled.tables (h : Compiled t a) (h64 : t.mode = .bits64) :
    a.binding? Mark.readTable.label = some (.inside t.readTableAt) ∧
      a.binding? Mark.writeTable.label = some (.inside t.writeTableAt) := by
  have hbound (q : Mark × ℕ) (hq : q ∈ Program.bound .bits64 0 t.items) :
      a.binding? q.1.label = some (.inside q.2) := h.bound q (h64 ▸ hq)
  rw [Target.items_eq, bound_append, bound_append, behind_table h64] at hbound
  simp only [List.mem_append] at hbound
  exact ⟨hbound (.readTable, _) (.inr (.inl (mem_bound_table h64 _))),
    hbound (.writeTable, _) (.inr (.inr (mem_bound_table h64 _)))⟩

theorem Compiled.slots (h : Compiled t a) (hc : t.convention ∈ Convention.all) {table done : Mark}
    {m : ℕ → Mark} (htable : t.table table done m <:+: t.items) :
    ∀ l ∈ t.labels done m, ∃ o, a.binding? l = some (.inside o) := by
  intro l hl
  have hmem : .code (.address l) ∈ t.table table done m := by
    rw [Target.table_eq]
    simpa using hl
  obtain ⟨k, hk, rfl⟩ := (linkable_items hc).far (.address l) (htable.subset hmem) rfl l rfl
  exact h.binding hk

theorem Compiled.size_eq (h : Compiled t a) (hc : t.convention ∈ Convention.all) :
    a.size = t.codeSize := by
  have hraw := @length_raw_placed t.mode 0 t.items
  rw [← h.carries.code, Nat.zero_add] at hraw
  rw [codeSize_eq hc, ← hraw]
  rfl

theorem Compiled.fields (h : Compiled t a) (hc : t.convention ∈ Convention.all)
    (h64 : t.mode = .bits64) (hsize : t.codeSize < 2 ^ 31) (base : UInt64) :
    ∀ p ∈ placed .bits64 0 t.items, (fieldAt? a base p).isSome := by
  rw [codeSize_eq hc] at hsize
  exact h64 ▸ fieldAt?_isSome (linkable_items hc) h.bound hsize (.inl h64)

theorem Compiled.linked_routines (h : Compiled t a) (hc : t.convention ∈ Convention.all)
    (h64 : t.mode = .bits64) (base base' : UInt64) :
    linkedFrom .bits64 a base 0 t.routines = linkedFrom .bits64 a base' 0 t.routines := by
  have hlink := linkable_items hc
  rw [h64] at hlink
  refine linkedFrom_of_noAddress (fun i hi => hlink.encodable i ?_) (fun p hp patch l hf => ?_)
    (address_notMem_routines hc)
  · rw [Target.items_eq]
    exact List.mem_append_left _ hi
  · obtain ⟨q, hq, rfl, -⟩ := hlink.exists_bound (p := p)
      (by rw [Target.items_eq, placed_append]; exact List.mem_append_left _ hp) hf
    exact ⟨q.2, h.bound q (h64 ▸ hq)⟩

/-- The image of a program: a part that is the same for every address, the first table, a filling,
the second table, and what the buffer held behind them. -/
def imageList (t : Target) (a : Assembler) (pre mid : Bytes) (base : UInt64)
    (buffer : Array UInt8) : Bytes :=
  pre ++ (addresses a base (t.labels .readEnd .readEntry) ++ (mid ++
    (addresses a base (t.labels .writeEnd .writeEntry) ++ buffer.toList.drop t.codeSize)))

/-- The parts that linking leaves alone. -/
structure Parts (t : Target) (a : Assembler) (pre mid : Bytes) : Prop where
  first : pre.length = t.readTableAt
  second : pre.length + 8 * t.layout.index.length + mid.length = t.writeTableAt
  flush : ∀ (buffer : Array UInt8) (base : UInt64), t.codeSize ≤ buffer.size →
    ∃ image, a.flush buffer base = (image, .ok (exportsAt a base)) ∧
      image.toList = imageList t a pre mid base buffer

theorem Compiled.parts (h : Compiled t a) (hc : t.convention ∈ Convention.all)
    (h64 : t.mode = .bits64) (hsize : t.codeSize < 2 ^ 31) : ∃ pre mid, Parts t a pre mid := by
  have hlen : (linkedFrom .bits64 a 0 0 t.routines).length = behind .bits64 0 t.routines := by
    have := @length_linked .bits64 a 0 0 t.routines fun p hp => h.fields hc h64 hsize 0 p
      (by rw [Target.items_eq, placed_append]; exact List.mem_append_left _ hp)
    rwa [Nat.zero_add] at this
  refine ⟨linkedFrom .bits64 a 0 0 t.routines ++
      List.replicate (padding 8 (behind .bits64 0 t.routines)) 0xcc,
    List.replicate (padding 8 (t.readTableAt + 8 * t.layout.index.length)) 0xcc, ?_, ?_, ?_⟩
  · simp [hlen, Target.readTableAt]
  · simp [hlen, Target.readTableAt, Target.writeTableAt]
  intro buffer base hb
  rw [← h.size_eq hc] at hb
  have hcarries : Carries .bits64 t.items a := h64 ▸ h.carries
  obtain ⟨image, hflush, himage⟩ :=
    flush_eq hcarries hb (h.fields hc h64 hsize base) (h.globalAddresses hc base)
  refine ⟨image, hflush, ?_⟩
  rw [himage, Target.items_eq, linkedFrom_append, linkedFrom_append,
    h.linked_routines hc h64 base 0,
    behind_table h64, linkedFrom_table h64 (h.slots hc t.readTable_infix),
    linkedFrom_table h64 (h.slots hc t.writeTable_infix)]
  simp only [imageList, h.size_eq hc, List.append_assoc, Target.readTableAt]

end Images

section Data

variable {l : Layout} {c : Convention} {p : Program}

def Target.rangeBehind (t : Target) (name : String) (o : ℕ) : DataRange :=
  ⟨name, o + padding t.pointer.size o,
    o + padding t.pointer.size o + t.pointer.size * t.layout.index.length⟩

/-- The ranges that were measured are those of the tables. -/
theorem compile_data (hp : compile l c = .ok p) (hc : c ∈ Convention.all) :
    let t : Target := ⟨l, c⟩
    p.data = [t.rangeBehind "read_table" (behind t.mode 0 t.routines),
      t.rangeBehind "write_table"
        (behind t.mode 0 (t.routines ++ t.table .readTable .readEnd .readEntry))] := by
  intro t
  rw [(compile_eq_ok hc hp).2]
  change rangesFrom t.mode (behind t.mode 0 t.routines) t.tables = _
  simp only [rangesFrom, Target.tables, behind_append, behind_opening, behind_slots, behind_tableOf,
    Target.rangeBehind]

def Target.tableRanges (t : Target) : List DataRange :=
  [⟨"read_table", t.readTableAt, t.readTableAt + 8 * t.layout.index.length⟩,
   ⟨"write_table", t.writeTableAt, t.writeTableAt + 8 * t.layout.index.length⟩]

theorem tableRanges_of_compile (hp : compile l c = .ok p) (hc : c ∈ Convention.all)
    (h64 : c.mode = .bits64) : p.data = Target.tableRanges ⟨l, c⟩ := by
  have hmode : Target.mode ⟨l, c⟩ = .bits64 := h64
  simp only [compile_data hp hc, Target.rangeBehind, pointer_size hmode, hmode, behind_append,
    behind_table hmode, Target.tableRanges, Target.readTableAt, Target.writeTableAt]

end Data

/-- What two links of a program have in common, if the second is a distance behind the first. -/
structure Moved (program : Program) (distance : UInt64) (image image' : Array UInt8)
    (globals globals' : List (String × UInt64)) : Prop where
  code : ∀ i < program.size, (∀ d ∈ program.data, i < d.start ∨ d.stop ≤ i) → image'[i]? = image[i]?
  slots : ∀ d ∈ program.data, ∀ k, d.start + 8 * k < d.stop →
    slotAt image' (d.start + 8 * k) = slotAt image (d.start + 8 * k) + distance
  globals : globals' = globals.map fun x => (x.1, x.2 + distance)

/-- A program of a layout that can be linked at any address, with tables of eight-byte slots. -/
structure Relocatable (l : Layout) (program : Program) : Prop where
  tables : program.data.map (·.name) = ["read_table", "write_table"] ∧
    ∀ d ∈ program.data, d.stop = d.start + 8 * l.index.length ∧ d.stop ≤ program.size
  links : ∀ (buffer : Array UInt8) (base : UInt64), program.size ≤ buffer.size →
    ∃ image globals, program.assembler.flush buffer base = (image, .ok globals) ∧
      globals.map (·.1) = exports.map (·.1) ∧
      image.size = buffer.size ∧ ∀ i, program.size ≤ i → image[i]? = buffer[i]?
  moves : ∀ (buffer buffer' : Array UInt8) (base base' : UInt64) image image' globals globals',
    program.assembler.flush buffer base = (image, .ok globals) →
    program.assembler.flush buffer' base' = (image', .ok globals') →
      Moved program (base' - base) image image' globals globals'

section Moving

variable {l : Layout} {c : Convention} {p : Program}

theorem exportsAt_add (base base' : UInt64) :
    exportsAt a base' = (exportsAt a base).map fun x => (x.1, x.2 + (base' - base)) := by
  rw [exportsAt, exportsAt, List.map_map]
  refine List.map_congr_left fun x _ => Prod.ext rfl ?_
  simp only [Function.comp]
  grind

/-- Slots with the same labels differ by the distance of the images. -/
theorem slotAt_add {image image' : Array UInt8} {pre pre' post post' : Bytes} {ls : List ℤ}
    {base base' : UInt64} (h : image.toList = pre ++ (addresses a base ls ++ post))
    (h' : image'.toList = pre' ++ (addresses a base' ls ++ post'))
    {k : ℕ} (hk : k < ls.length) :
    slotAt image' (pre'.length + 8 * k) = slotAt image (pre.length + 8 * k) + (base' - base) := by
  rw [slotAt_addresses h' (List.getElem?_eq_getElem hk),
    slotAt_addresses h (List.getElem?_eq_getElem hk)]
  grind

variable {pre mid : Bytes} {buffer buffer' image image' : Array UInt8} {base base' : UInt64}

theorem Parts.size (h : Parts t a pre mid) (hc : t.convention ∈ Convention.all)
    (h64 : t.mode = .bits64) :
    t.codeSize = pre.length + 8 * t.layout.index.length + mid.length + 8 *
      t.layout.index.length := by
  rw [codeSize_eq_tables hc h64, h.second]

/-- What is behind the code stays. -/
theorem Parts.behind (h : Parts t a pre mid) (hc : t.convention ∈ Convention.all)
    (h64 : t.mode = .bits64) (hb : t.codeSize ≤ buffer.size)
    (himage : image.toList = imageList t a pre mid base buffer) :
    image.size = buffer.size ∧ ∀ i, t.codeSize ≤ i → image[i]? = buffer[i]? := by
  have hsize := h.size hc h64
  simp only [imageList, ← List.append_assoc] at himage
  set code := pre ++ addresses a base (t.labels .readEnd .readEntry) ++ mid ++
    addresses a base (t.labels .writeEnd .writeEntry) with hcode
  have hlen : code.length = t.codeSize := by
    simp only [hcode, List.length_append, length_addresses, Target.length_labels, hsize]
  constructor
  · have := congrArg List.length himage
    simp only [List.length_append, List.length_drop, Array.length_toList, hlen] at this
    omega
  · intro i hi
    rw [← Array.getElem?_toList, ← Array.getElem?_toList, himage,
      List.getElem?_append_right (hlen ▸ hi), List.getElem?_drop, hlen, Nat.add_sub_cancel' hi]

/-- Outside of the tables all images agree. -/
theorem Parts.code (h : Parts t a pre mid) (hc : t.convention ∈ Convention.all)
    (h64 : t.mode = .bits64) (himage : image.toList = imageList t a pre mid base buffer)
    (himage' : image'.toList = imageList t a pre mid base' buffer') {i : ℕ} (hi : i < t.codeSize)
    (hread : i < t.readTableAt ∨ t.readTableAt + 8 * t.layout.index.length ≤ i)
    (hwrite : i < t.writeTableAt ∨ t.writeTableAt + 8 * t.layout.index.length ≤ i) :
    image'[i]? = image[i]? := by
  rw [h.size hc h64] at hi
  rw [← h.first] at hread
  rw [← h.second] at hwrite
  rw [← Array.getElem?_toList, ← Array.getElem?_toList, himage, himage']
  simp only [imageList, List.getElem?_append, length_addresses, Target.length_labels]
  -- a place in one of the two common parts, or in none of those that are left
  split_ifs <;> first | rfl | omega

/-- Both tables move by the distance of the images. -/
theorem Parts.slots (h : Parts t a pre mid)
    (himage : image.toList = imageList t a pre mid base buffer)
    (himage' : image'.toList = imageList t a pre mid base' buffer') {k : ℕ}
    (hk : k < t.layout.index.length) :
    slotAt image' (t.readTableAt + 8 * k) = slotAt image (t.readTableAt + 8 * k) + (base' - base) ∧
    slotAt image' (t.writeTableAt + 8 * k) =
      slotAt image (t.writeTableAt + 8 * k) + (base' - base) := by
  -- the first table and the filling belong to what is in front of the second table
  have hsecond (b : UInt64) (x : Array UInt8) : imageList t a pre mid b x =
      (pre ++ (addresses a b (t.labels .readEnd .readEntry) ++ mid)) ++
        (addresses a b (t.labels .writeEnd .writeEntry) ++ x.toList.drop t.codeSize) := by
    simp only [imageList, List.append_assoc]
  constructor
  · rw [← h.first]
    exact slotAt_add himage himage' (by rwa [Target.length_labels])
  · have hmoved := slotAt_add (himage.trans (hsecond base _)) (himage'.trans (hsecond base' _))
      (k := k) (by rwa [Target.length_labels])
    simpa only [List.length_append, length_addresses, Target.length_labels,
      ← Nat.add_assoc, h.second] using hmoved

theorem Compiled.relocatable (h : Compiled ⟨l, c⟩ p.assembler) (hp : compile l c = .ok p)
    (hc : c ∈ Convention.all) (h64 : c.mode = .bits64) (hsize : Target.codeSize ⟨l, c⟩ < 2 ^ 31) :
    Relocatable l p := by
  have hpsize : p.size = Target.codeSize ⟨l, c⟩ := h.size_eq hc
  obtain ⟨pre, mid, hparts⟩ := h.parts hc h64 hsize
  have hdata := tableRanges_of_compile hp hc h64
  refine ⟨⟨by rw [hdata]; rfl, ?_⟩, fun buffer base hb => ?_, ?_⟩
  · have hcode := hparts.size hc h64
    have hfirst := hparts.first
    have hsecond := hparts.second
    dsimp only at hcode hsecond
    rw [hdata, hpsize]
    simp only [Target.tableRanges, List.forall_mem_cons, List.not_mem_nil, false_imp_iff,
      implies_true, and_true, true_and]
    omega
  · obtain ⟨image, hf, himage⟩ := hparts.flush buffer base (hpsize ▸ hb)
    exact ⟨image, _, hf, by simp [exportsAt],
      hpsize ▸ hparts.behind hc h64 (hpsize ▸ hb) himage⟩
  · intro buffer buffer' base base' image image' globals globals' hf hf'
    obtain ⟨_, hf₁, himage⟩ :=
      hparts.flush buffer base (hpsize ▸ (Assembler.flush_eq_ok_iff.1 hf).1)
    obtain ⟨_, hf₂, himage'⟩ :=
      hparts.flush buffer' base' (hpsize ▸ (Assembler.flush_eq_ok_iff.1 hf').1)
    cases hf.symm.trans hf₁
    cases hf'.symm.trans hf₂
    refine ⟨fun i hi hout => ?_, fun d hd k hk => ?_, exportsAt_add base base'⟩
    · rw [hdata] at hout
      simp only [Target.tableRanges, List.forall_mem_cons] at hout
      exact hparts.code hc h64 himage himage' (hpsize ▸ hi) hout.1 hout.2.1
    · rw [hdata, Target.tableRanges, List.mem_pair] at hd
      rcases hd with rfl | rfl <;> dsimp only at hk ⊢
      · exact (hparts.slots himage himage' (by dsimp only; omega)).1
      · exact (hparts.slots himage himage' (by dsimp only; omega)).2

end Moving

/-- Every layout compiles, for every standard convention, if its code is short enough: no arguments
move in a circle, no mark stands twice, every instruction can be written, every label is that of a
mark and near enough for short jumps. Code for 64-bit mode can then be linked at every address. -/
theorem compile_relocatable {l : Layout} {c : Convention} (hc : c ∈ Convention.all)
    (hsize : Target.codeSize ⟨l, c⟩ < 2 ^ 31 - 2 ^ 16) :
    ∃ items program, Target.items? ⟨l, c⟩ = some items ∧ (marks items).Nodup ∧
      Linkable c.mode (marks items) items ∧ compile l c = .ok program ∧
      program.convention = c ∧ program.size = Target.codeSize ⟨l, c⟩ ∧
      (c.mode = .bits64 → Relocatable l program) := by
  have hsize' : Target.codeSize ⟨l, c⟩ < 2 ^ 31 := by omega
  obtain ⟨program, hcompile, hconvention, hprogram, hcompiled⟩ := compile_eq hc hsize'
  exact ⟨_, program, Target.items?_eq (t := ⟨l, c⟩) hc,
    (allMarks_nodup l).sublist (marks_items_sublist (t := ⟨l, c⟩) hc),
    linkable_items (t := ⟨l, c⟩) hc,
    hcompile, hconvention, hprogram, fun h64 => hcompiled.relocatable hcompile hc h64 hsize'⟩

/-- Two pads under the first convention, whose code and tables have some hundred bytes. -/
theorem twoPads_relocatable : Convention.sysv ∈ Convention.all ∧
    Target.codeSize ⟨Layout.plan Layout.twoPads, .sysv⟩ < 2 ^ 31 - 2 ^ 16 ∧
    ∃ program, compile (Layout.plan Layout.twoPads) .sysv = .ok program ∧
      Relocatable (Layout.plan Layout.twoPads) program := by
  have hc : Convention.sysv ∈ Convention.all := by decide
  have hsize : Target.codeSize ⟨Layout.plan Layout.twoPads, .sysv⟩ < 2 ^ 31 - 2 ^ 16 := by
    rw [@codeSize_eq ⟨Layout.plan Layout.twoPads, .sysv⟩ hc]
    decide +kernel
  obtain ⟨_, program, -, -, -, hcompile, -, -, hmoves⟩ := compile_relocatable hc hsize
  exact ⟨hc, hsize, program, hcompile, hmoves rfl⟩

end PortCodec.Program
