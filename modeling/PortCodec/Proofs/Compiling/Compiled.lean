import PortCodec.Proofs.Compiling.Routines

/-! Compiling succeeds for every layout and every standard convention, as long as the code has less
than 2 ^ 31 bytes, and the code can be linked wherever its addresses fit. -/

namespace PortCodec.Program

open X86 Assembly

variable {t : Target} {outer : List Mark}

namespace Target

def serializeItems (t : Target) : List Item :=
  t.entry .serialize ++ t.arguments [t.frame.state, t.frame.text] ++
    [Item.code (.mov t.pointer (.register t.frame.start) t.frame.text)] ++
    t.layout.program.zipIdx.flatMap (fun (s, i) => t.serializeStep i s) ++ t.leave

def deserializeItems (t : Target) : List Item :=
  t.entry .deserialize ++ t.arguments [t.frame.state, t.frame.text] ++
    [.code (.mov t.pointer (.register t.frame.start) t.frame.text)] ++ t.clearState ++
    t.layout.program.zipIdx.flatMap (fun (s, i) => t.deserializeStep i s) ++ t.leave

def readItems (t : Target) : List Item :=
  t.entry .read ++ [.code (.alu .xor .dword .rax .rax)] ++
    t.arguments [t.frame.state, t.frame.controller, t.frame.control] ++
    t.dispatch .readTable .readEnd ++ t.entries .readEntry t.readEntry ++
    [.mark .readEnd] ++ t.leave

def writeItems (t : Target) : List Item :=
  t.entry .write ++ t.arguments [t.frame.state, t.frame.controller, t.frame.control,
    t.frame.value] ++
    t.dispatch .writeTable .writeEnd ++ t.entries .writeEntry t.writeEntry ++ [.mark .writeEnd] ++
    t.leave

/-- All that a program is made of, unless the arguments move in a circle. -/
def items? (t : Target) : Option (List Item) := do
  return (← t.routines?) ++ t.table .readTable .readEnd .readEntry ++
    t.table .writeTable .writeEnd .writeEntry

def routines (t : Target) : List Item :=
  t.serializeItems ++ t.deserializeItems ++ t.readItems ++ t.writeItems ++
    t.formatAxis ++ t.parseAxis ++ t.skipField

def items (t : Target) : List Item :=
  t.serializeItems ++ t.deserializeItems ++ t.readItems ++ t.writeItems ++
    t.formatAxis ++ t.parseAxis ++ t.skipField ++
    t.table .readTable .readEnd .readEntry ++ t.table .writeTable .writeEnd .writeEntry

theorem items_eq (t : Target) : t.items = t.routines ++ (t.table .readTable .readEnd .readEntry ++
    t.table .writeTable .writeEnd .writeEntry) := by
  simp only [items, routines, List.append_assoc]

/-- Where the entries of a table lead: to the code of their control, or to the end of the
routine. -/
def labels (t : Target) (done : Mark) (m : ℕ → Mark) : List ℤ :=
  t.layout.index.zipIdx.map fun (e, i) => if e.isStored then (m i).label else done.label

theorem length_labels (t : Target) (done : Mark) (m : ℕ → Mark) :
    (t.labels done m).length = t.layout.index.length := by simp [labels]

theorem slots_eq (t : Target) (done : Mark) (m : ℕ → Mark) :
    t.slots done m = (t.labels done m).map fun l => .code (.address l) := by
  simp only [slots, labels, List.map_map]
  rfl

theorem table_eq (t : Target) (table done : Mark) (m : ℕ → Mark) : t.table table done m =
    .align t.pointer.size :: .mark table :: (t.labels done m).map fun l => .code (.address l) := by
  rw [Target.table, slots_eq]
  rfl

theorem serialize_infix (t : Target) : t.serializeItems <:+: t.items :=
  ⟨[], t.deserializeItems ++ t.readItems ++ t.writeItems ++ t.formatAxis ++
    t.parseAxis ++ t.skipField ++
    t.table .readTable .readEnd .readEntry ++ t.table .writeTable .writeEnd .writeEntry,
    by simp only [items, List.append_assoc, List.nil_append]⟩

theorem deserialize_infix (t : Target) : t.deserializeItems <:+: t.items :=
  ⟨t.serializeItems, t.readItems ++ t.writeItems ++ t.formatAxis ++ t.parseAxis ++ t.skipField ++
    t.table .readTable .readEnd .readEntry ++ t.table .writeTable .writeEnd .writeEntry,
    by simp only [items, List.append_assoc]⟩

theorem read_infix (t : Target) : t.readItems <:+: t.items :=
  ⟨t.serializeItems ++ t.deserializeItems, t.writeItems ++ t.formatAxis ++
    t.parseAxis ++ t.skipField ++
    t.table .readTable .readEnd .readEntry ++ t.table .writeTable .writeEnd .writeEntry,
    by simp only [items, List.append_assoc]⟩

theorem write_infix (t : Target) : t.writeItems <:+: t.items :=
  ⟨t.serializeItems ++ t.deserializeItems ++ t.readItems,
    t.formatAxis ++ t.parseAxis ++ t.skipField ++
    t.table .readTable .readEnd .readEntry ++ t.table .writeTable .writeEnd .writeEntry,
    by simp only [items, List.append_assoc]⟩

theorem formatAxis_infix (t : Target) : t.formatAxis <:+: t.items :=
  ⟨t.serializeItems ++ t.deserializeItems ++ t.readItems ++ t.writeItems,
    t.parseAxis ++ t.skipField ++ t.table .readTable .readEnd .readEntry ++
      t.table .writeTable .writeEnd .writeEntry, by simp only [items, List.append_assoc]⟩

theorem parseAxis_infix (t : Target) : t.parseAxis <:+: t.items :=
  ⟨t.serializeItems ++ t.deserializeItems ++ t.readItems ++ t.writeItems ++ t.formatAxis,
    t.skipField ++ t.table .readTable .readEnd .readEntry ++
      t.table .writeTable .writeEnd .writeEntry,
    by simp only [items, List.append_assoc]⟩

theorem skipField_infix (t : Target) : t.skipField <:+: t.items :=
  ⟨t.serializeItems ++ t.deserializeItems ++ t.readItems ++ t.writeItems ++
    t.formatAxis ++ t.parseAxis,
    t.table .readTable .readEnd .readEntry ++ t.table .writeTable .writeEnd .writeEntry,
    by simp only [items, List.append_assoc]⟩

theorem readTable_infix (t : Target) : t.table .readTable .readEnd .readEntry <:+: t.items :=
  ⟨t.serializeItems ++ t.deserializeItems ++ t.readItems ++ t.writeItems ++
    t.formatAxis ++ t.parseAxis ++
    t.skipField, t.table .writeTable .writeEnd .writeEntry, by simp only [items]⟩

theorem writeTable_infix (t : Target) : t.table .writeTable .writeEnd .writeEntry <:+: t.items :=
  (List.suffix_append _ _).isInfix

theorem wanted_line (t : Target) : [t.frame.state, t.frame.text] ∈ t.wanted := by simp [wanted]

theorem wanted_read (t : Target) :
    [t.frame.state, t.frame.controller, t.frame.control] ∈ t.wanted := by simp [wanted]

theorem wanted_write (t : Target) :
    [t.frame.state, t.frame.controller, t.frame.control, t.frame.value] ∈ t.wanted := by
      simp [wanted]

/-- The arguments of no routine move in a circle. -/
theorem routines?_eq (hc : t.convention ∈ Convention.all) : t.routines? = some t.routines := by
  simp only [routines?, serialize, deserialize, read, write, (loadArguments_eq hc t.wanted_line).1,
    (loadArguments_eq hc t.wanted_read).1, (loadArguments_eq hc t.wanted_write).1]
  rfl

theorem items?_eq (hc : t.convention ∈ Convention.all) : t.items? = some t.items := by
  simp only [items?, routines?_eq hc]
  rfl

end Target

section Marks

theorem marks_flatMap {α : Type} (xs : List α) (f : α → List Item) :
    marks (xs.flatMap f) = xs.flatMap fun x => marks (f x) := by
  induction xs with
  | nil => rfl
  | cons x rest ih => simp [marks_append, ih]

theorem marks_eq_nil {items : List Item} (h : ∀ m, .mark m ∉ items) : marks items = [] := by
  induction items with
  | nil => rfl
  | cons i rest ih =>
    have hrest := ih fun m hm => h m (List.mem_cons_of_mem _ hm)
    cases i with
    | mark m => exact absurd List.mem_cons_self (h m)
    | code c => exact hrest
    | align n => exact hrest

theorem marks_entry (m : Mark) : marks (t.entry m) = [m] :=
  congrArg (m :: ·) (marks_eq_nil (by simp))

theorem marks_leave : marks t.leave = [] := marks_eq_nil (by simp [Target.leave])

theorem marks_arguments (hc : t.convention ∈ Convention.all) {dsts : List Register}
    (hd : dsts ∈ t.wanted) : marks (t.arguments dsts) = [] := by
  refine marks_eq_nil fun m hm => ?_
  obtain ⟨c, ⟨⟩, -⟩ := isStraight_code (loadArguments_eq hc hd).2 hm

theorem marks_clearState : marks t.clearState = [] := by
  refine marks_eq_nil fun m => ?_
  simp only [Target.clearState]
  split_ifs <;> simp

theorem marks_dispatch (table done : Mark) : marks (t.dispatch table done) = [] := by
  refine marks_eq_nil fun m => ?_
  simp only [Target.dispatch]
  split_ifs <;> simp

theorem marks_readEntry (e : Entry) : marks (t.readEntry e) = [] := by
  refine marks_eq_nil fun m => ?_
  simp only [Target.readEntry]
  split_ifs <;> simp

theorem marks_writeEntry (e : Entry) : marks (t.writeEntry e) = [] := by
  refine marks_eq_nil fun m => ?_
  simp only [Target.writeEntry]
  split_ifs <;> simp

theorem marks_table (table done : Mark) (m : ℕ → Mark) : marks (t.table table done m) = [table] :=
  congrArg (table :: ·) (marks_eq_nil (by simp [Target.slots]))

/-- The marks of a family at the places of a list that satisfy a condition. -/
def selected {α : Type} (c : α → Bool) (m : ℕ → Mark) (xs : List α) : List Mark :=
  xs.zipIdx.flatMap fun (x, i) => if c x then [m i] else []

theorem marks_entries (m : ℕ → Mark) {body : Entry → List Item} (h : ∀ e, marks (body e) = []) :
    marks (t.entries m body) = selected Entry.isStored m t.layout.index := by
  rw [Target.entries, marks_flatMap]
  refine List.flatMap_congr fun x _ => ?_
  dsimp only
  split_ifs
  · exact congrArg (m x.2 :: ·) (h x.1)
  · rfl

def isButtonStep : Step → Bool
  | .button .. => true
  | _ => false

theorem marks_steps :
    marks (t.layout.program.zipIdx.flatMap fun (s, i) => t.serializeStep i s) =
      selected isButtonStep .serialized t.layout.program ∧
    marks (t.layout.program.zipIdx.flatMap fun (s, i) => t.deserializeStep i s) =
      selected isButtonStep .deserialized t.layout.program := by
  constructor <;> rw [marks_flatMap] <;> refine List.flatMap_congr fun x _ => ?_ <;>
    obtain ⟨s, i⟩ := x <;> cases s <;> rfl

theorem selected_sublist {α : Type} (c : α → Bool) (m : ℕ → Mark) (xs : List α) :
    (selected c m xs).Sublist ((List.range xs.length).map m) := by
  have hfrom (k : ℕ) : (xs.zipIdx k |>.flatMap fun (x, i) => if c x then [m i] else []).Sublist
      ((List.range' k xs.length).map m) := by
    induction xs generalizing k with
    | nil => simp
    | cons x rest ih =>
      simp only [List.zipIdx_cons, List.flatMap_cons, List.length_cons,
        List.range'_succ, List.map_cons]
      split_ifs
      · exact (ih (k + 1)).cons_cons _
      · exact (ih (k + 1)).cons _
  simpa [selected, List.range_eq_range'] using hfrom 0

theorem mem_selected {α : Type} {c : α → Bool} {m : ℕ → Mark} {xs : List α} {p : α × ℕ}
    (hp : p ∈ xs.zipIdx) (hc : c p.1 = true) : m p.2 ∈ selected c m xs :=
  List.mem_flatMap.2 ⟨p, hp, by simp [hc]⟩

/-- The marks inside the routines that others call. -/
def helperMarks : List Mark :=
  [.formatAxis, .positive, .divide, .output, .formatted, .parseAxis, .blanks,
   .nextBlank, .sign, .plus,
   .digits, .parsed, .signed, .skipField, .nextByte, .separator, .skipped, .readTable, .writeTable]

/-- All marks in their order. -/
theorem marks_items (hc : t.convention ∈ Convention.all) : marks t.items =
    (Mark.serialize :: selected isButtonStep .serialized t.layout.program) ++
    (Mark.deserialize :: selected isButtonStep .deserialized t.layout.program) ++
    (Mark.read :: selected Entry.isStored .readEntry t.layout.index ++ [Mark.readEnd]) ++
    (Mark.write :: selected Entry.isStored .writeEntry t.layout.index ++ [Mark.writeEnd]) ++
    helperMarks := by
  have hcode (i : Instruction) : marks [.code i] = [] := rfl
  have hmark (m : Mark) : marks [.mark m] = [m] := rfl
  have hhelpers : marks t.formatAxis ++ marks t.parseAxis ++ marks t.skipField ++
      [.readTable, .writeTable] = helperMarks := rfl
  simp only [Target.items, Target.serializeItems, Target.deserializeItems, Target.readItems,
    Target.writeItems, marks_append, marks_entry, marks_leave, hcode, hmark, marks_clearState,
    marks_dispatch, marks_entries _ marks_readEntry, marks_entries _ marks_writeEntry, marks_table,
    marks_arguments hc t.wanted_line, marks_arguments hc t.wanted_read,
    marks_arguments hc t.wanted_write, marks_steps.1, marks_steps.2, ← hhelpers]
  simp

/-- The marks of a layout, those of steps and entries for all of them. -/
def allMarks (l : Layout) : List Mark :=
  (Mark.serialize :: (List.range l.program.length).map .serialized) ++
  (Mark.deserialize :: (List.range l.program.length).map .deserialized) ++
  (Mark.read :: (List.range l.index.length).map .readEntry ++ [Mark.readEnd]) ++
  (Mark.write :: (List.range l.index.length).map .writeEntry ++ [Mark.writeEnd]) ++ helperMarks

theorem marks_items_sublist (hc : t.convention ∈ Convention.all) :
    (marks t.items).Sublist (allMarks t.layout) := by
  rw [marks_items hc]
  have hs := selected_sublist isButtonStep .serialized t.layout.program
  have hd := selected_sublist isButtonStep .deserialized t.layout.program
  have hr := selected_sublist Entry.isStored .readEntry t.layout.index
  have hw := selected_sublist Entry.isStored .writeEntry t.layout.index
  exact ((((hs.cons_cons _).append (hd.cons_cons _)).append
    ((hr.cons_cons _).append (.refl _))).append
    ((hw.cons_cons _).append (.refl _))).append (.refl _)

theorem allMarks_nodup (l : Layout) : (allMarks l).Nodup := by
  have hmap (m : ℕ → Mark) (n : ℕ) (h : Function.Injective m) : ((List.range n).map m).Nodup :=
    List.nodup_range.map h
  have h1 := hmap .serialized l.program.length fun _ _ h => by cases h; rfl
  have h2 := hmap .deserialized l.program.length fun _ _ h => by cases h; rfl
  have h3 := hmap .readEntry l.index.length fun _ _ h => by cases h; rfl
  have h4 := hmap .writeEntry l.index.length fun _ _ h => by cases h; rfl
  have hdisjoint (m k : ℕ → Mark) (n o : ℕ) (h : ∀ i j, m i ≠ k j) :
      List.Disjoint ((List.range n).map m) ((List.range o).map k) := by
    intro x hx hy
    obtain ⟨i, -, rfl⟩ := List.mem_map.1 hx
    obtain ⟨j, -, hj⟩ := List.mem_map.1 hy
    exact h i j hj.symm
  simp [allMarks, helperMarks, List.nodup_append', h1, h2, h3, h4, hdisjoint]

theorem label_lt {l : Layout} {m : Mark} (h : m ∈ allMarks l) : m.label.toNat < labelCount l := by
  have hfew {n : ℕ} (hn : n < 25) : n < labelCount l := by unfold labelCount; omega
  cases m with
  | serialized i | deserialized i | readEntry i | writeEntry i =>
    have hi : i < max l.program.length l.index.length := by
      simp [allMarks, helperMarks] at h
      omega
    simp only [Mark.label, labelCount]
    omega
  | _ => exact hfew (by decide)

end Marks

/-- Every piece can be encoded and linked. -/
theorem linkable_items (hc : t.convention ∈ Convention.all) :
    Linkable t.mode (marks t.items) t.items := by
  have hmem {m : Mark} (h : m ∈ [Mark.formatAxis, .parseAxis, .skipField, .readTable, .writeTable,
      .readEnd, .writeEnd]) : m ∈ marks t.items := by
    rw [marks_items hc]
    simp only [List.mem_cons, List.not_mem_nil, or_false] at h
    rcases h with rfl | rfl | rfl | rfl | rfl | rfl | rfl <;> simp [helperMarks]
  have hstored (p : Entry × ℕ) (hp : p ∈ t.layout.index.zipIdx) (hs : p.1.isStored = true) :
      Mark.readEntry p.2 ∈ marks t.items ∧ Mark.writeEntry p.2 ∈ marks t.items := by
    rw [marks_items hc]
    simp [mem_selected hp hs]
  have hread := hmem (m := .readEnd) (by simp)
  have hwrite := hmem (m := .writeEnd) (by simp)
  have hserialize : Linkable t.mode (marks t.items) t.serializeItems :=
    ((((entry_linkable hc _).append (arguments_linkable hc t.wanted_line)).append
      (start_linkable hc)).append (.flatMap fun p _ =>
        serializeStep_linkable hc (hmem (by simp)) p.2 p.1)).append (leave_linkable hc)
  have hdeserialize : Linkable t.mode (marks t.items) t.deserializeItems :=
    (((((entry_linkable hc _).append (arguments_linkable hc t.wanted_line)).append
      (start_linkable hc)).append (clearState_linkable hc)).append (.flatMap fun p _ =>
        deserializeStep_linkable hc (hmem (by simp)) (hmem (by simp)) p.2 p.1)).append
          (leave_linkable hc)
  have hreadItems : Linkable t.mode (marks t.items) t.readItems :=
    ((((((entry_linkable hc _).append (zero_linkable hc)).append
      (arguments_linkable hc t.wanted_read)).append
        (dispatch_linkable hc (hmem (by simp)) hread)).append
        (entries_linkable (readEntry_linkable hc hread))).append (.mark .nil)).append
          (leave_linkable hc)
  have hwriteItems : Linkable t.mode (marks t.items) t.writeItems :=
    (((((entry_linkable hc _).append (arguments_linkable hc t.wanted_write)).append
      (dispatch_linkable hc (hmem (by simp)) hwrite)).append
        (entries_linkable (writeEntry_linkable hc hwrite))).append (.mark .nil)).append
          (leave_linkable hc)
  exact (((((((hserialize.append hdeserialize).append hreadItems).append hwriteItems).append
    (helper_linkable hc (by simp))).append (helper_linkable hc (by simp))).append
      (helper_linkable hc (by simp))).append
        (table_linkable hc hread fun p hp hs => (hstored p hp hs).1)).append
          (table_linkable hc hwrite fun p hp hs => (hstored p hp hs).2)

section Compile

def Target.codeSize (t : Target) : ℕ :=
  match t.items? with
  | none => 0
  | some items =>
    (placeAll { mode := t.mode, assembler := prepared t.layout } items).1.assembler.size

/-- An assembler that holds the code of a target, with its marks bound and its names exported. -/
structure Compiled (t : Target) (a : Assembler) : Prop where
  carries : Carries t.mode t.items a
  bound : ∀ q ∈ bound t.mode 0 t.items, a.binding? q.1.label = some (.inside q.2)
  globals : a.globals = exports.map fun (name, m) => (name, m.label)

/-- Every part in front of the rest is placed without a fault. -/
theorem placeAll_front (hc : t.convention ∈ Convention.all) {before : List Item}
    (h : before <+: t.items) :
    placeAll { mode := t.mode, assembler := prepared t.layout } before =
      (appended { mode := t.mode, assembler := prepared t.layout } before, none) := by
  have hmarks : (marks before).Sublist (allMarks t.layout) := by
    obtain ⟨after, hafter⟩ := h
    refine List.Sublist.trans ?_ (marks_items_sublist hc)
    rw [← hafter, marks_append]
    exact List.sublist_append_left ..
  refine placeAll_eq rfl (fun i hi => (linkable_items hc).encodable i (h.subset hi))
    ((allMarks_nodup _).sublist hmarks) fun m hm => ?_
  have hlt := label_lt (hmarks.subset hm)
  rw [binding?_label]
  simp [prepared, hlt]

theorem placeAll_items (hc : t.convention ∈ Convention.all) :
    placeAll { mode := t.mode, assembler := prepared t.layout } t.items =
      (appended { mode := t.mode, assembler := prepared t.layout } t.items, none) :=
  placeAll_front hc (List.prefix_refl _)

/-- A part is placed behind those in front of it. -/
theorem placing_front (hc : t.convention ∈ Convention.all) {before part : List Item}
    (h : before ++ part <+: t.items) :
    placing (appended { mode := t.mode, assembler := prepared t.layout } before) part =
      .ok (appended { mode := t.mode, assembler := prepared t.layout } (before ++ part)) := by
  have hbefore := placeAll_front hc ((List.prefix_append _ _).trans h)
  rw [placing, ← placeAll_append hbefore, placeAll_front hc h]

def rangesFrom (mode : Mode) (o : ℕ) : List Table → List DataRange
  | [] => []
  | x :: rest =>
    let start := behind mode o x.opening
    let stop := behind mode start x.slots
    ⟨x.name, start, stop⟩ :: rangesFrom mode stop rest

theorem placeTables_front (hc : t.convention ∈ Convention.all) {before : List Item}
    {tables : List Table}
    (h : before ++ tables.flatMap (fun x => x.opening ++ x.slots) <+: t.items) :
    placeTables (appended { mode := t.mode, assembler := prepared t.layout } before) tables =
      .ok (appended { mode := t.mode, assembler := prepared t.layout }
          (before ++ tables.flatMap fun x => x.opening ++ x.slots),
        rangesFrom t.mode (behind t.mode 0 before) tables) := by
  induction tables generalizing before with
  | nil => simp [placeTables, rangesFrom]
  | cons x rest ih =>
    simp only [List.flatMap_cons, ← List.append_assoc] at h ⊢
    have hslots := (List.prefix_append _ _).trans h
    have hsize (items : List Item) :=
      size_appended { mode := t.mode, assembler := prepared t.layout } items
    simp only [placeTables, placing_front hc ((List.prefix_append _ _).trans hslots), ok_bind,
      placing_front hc hslots, ih h, rangesFrom, hsize, behind_append]
    rfl

/-- A program is placed in one piece, and its tables are found where they are written. -/
theorem place_program (hc : t.convention ∈ Convention.all) :
    (placing { mode := t.mode, assembler := prepared t.layout } t.routines >>= fun e =>
      placeTables e t.tables) =
        .ok (appended { mode := t.mode, assembler := prepared t.layout } t.items,
          rangesFrom t.mode (behind t.mode 0 t.routines) t.tables) := by
  have hitems : t.routines ++ t.tables.flatMap (fun x => x.opening ++ x.slots) = t.items := by
    simp [Target.items_eq, Target.tables, Target.table]
  have hroutines : placing { mode := t.mode, assembler := prepared t.layout } t.routines =
      .ok (appended { mode := t.mode, assembler := prepared t.layout } t.routines) := by
    rw [placing, placeAll_front hc ⟨_, hitems⟩]
  rw [hroutines, ← hitems]
  exact placeTables_front hc (hitems ▸ List.prefix_refl _)

theorem compiled_appended (hc : t.convention ∈ Convention.all) :
    Compiled t (appended { mode := t.mode, assembler := prepared t.layout } t.items).assembler where
  carries := by
    constructor
    · simp [appended, appendedAt, prepared, Assembler.size]
    · simp [appended, appendedAt, prepared, Assembler.size]
  bound := by
    intro q hq
    have hmem : q.1 ∈ marks t.items := by
      rw [← @map_bound t.mode 0]
      exact List.mem_map_of_mem hq
    have hlt := label_lt ((marks_items_sublist hc).subset hmem)
    have hnodup : ((Program.bound t.mode 0 t.items).map (·.1)).Nodup := by
      rw [map_bound]
      exact (allMarks_nodup _).sublist (marks_items_sublist hc)
    have hsize : (prepared t.layout).size = 0 := rfl
    have hbind := @getElem?_bind (prepared t.layout).labels _ _ _ hnodup hq
      (by simpa [prepared] using hlt)
    rw [binding?_label]
    simpa only [appended, appendedAt, hsize] using hbind
  globals := by simp only [appended, appendedAt, prepared]

theorem codeSize_eq (hc : t.convention ∈ Convention.all) :
    t.codeSize = behind t.mode 0 t.items := by
  simp only [Target.codeSize, Target.items?_eq hc, placeAll_items hc]
  exact size_appended _ _

variable {a : Assembler} {base : UInt64}

theorem exports_marks (hc : t.convention ∈ Convention.all) {x : String × Mark} (hx : x ∈ exports) :
    x.2 ∈ marks t.items := by
  have hmem : ∀ x ∈ exports, x.2 ∈ [Mark.serialize, .deserialize, .read, .write, .formatAxis,
      .parseAxis, .skipField, .readTable, .writeTable] := by decide
  have h := hmem x hx
  rw [marks_items hc]
  simp only [List.mem_cons, List.not_mem_nil, or_false] at h
  rcases h with h | h | h | h | h | h | h | h | h <;> simp [h, helperMarks]

theorem Compiled.binding (h : Compiled t a) {m : Mark} (hm : m ∈ marks t.items) :
    ∃ o, a.binding? m.label = some (.inside o) := by
  obtain ⟨q, hq, rfl⟩ := @exists_bound t.mode t.items m hm 0
  exact ⟨q.2, h.bound q hq⟩

def exportsAt (a : Assembler) (base : UInt64) : List (String × UInt64) :=
  exports.map fun x => (x.1, base + UInt64.ofNat (codeOffset a x.2.label))

theorem Compiled.globalAddresses (h : Compiled t a) (hc : t.convention ∈ Convention.all)
    (base : UInt64) : a.globalAddresses base a.globals = .ok (exportsAt a base) := by
  rw [h.globals, globalAddresses_codeOffset, exportsAt, List.map_map]
  · rfl
  · intro x hx
    obtain ⟨y, hy, rfl⟩ := List.mem_map.1 hx
    exact h.binding (exports_marks hc hy)

/-- Compiled code can be linked where four-byte addresses reach it. -/
theorem Compiled.link (h : Compiled t a) (hc : t.convention ∈ Convention.all)
    (hsize : t.codeSize < 2 ^ 31)
    (hbase : t.mode = .bits64 ∨ base.toNat + t.codeSize < 2 ^ 32) :
    ∃ image globals, a.link base = .ok (image, globals) := by
  rw [codeSize_eq hc] at hsize hbase
  have hf := fieldAt?_isSome (linkable_items hc) h.bound hsize hbase
  exact ⟨((placed t.mode 0 t.items).flatMap (linkedAt a base)).toArray, exportsAt a base,
    (link_eq_ok_iff h.carries).2 ⟨hf, h.globalAddresses hc base, by simp only⟩⟩

theorem savedClash?_eq (hc : t.convention ∈ Convention.all) : savedClash? t = none := by
  have h : ∀ c ∈ Convention.all, savedClash? (Target.bare c) = none := by decide +kernel
  exact h _ hc

/-- What is compiled is the code of the layout, however long that is, with the places of its
tables. -/
theorem compile_eq_ok {l : Layout} {c : Convention} {p : Program} (hc : c ∈ Convention.all)
    (h : compile l c = .ok p) :
    p.assembler = (appended { mode := c.mode, assembler := prepared l }
        (Target.items ⟨l, c⟩)).assembler ∧
      p.data = rangesFrom c.mode (behind c.mode 0 (Target.routines ⟨l, c⟩))
        (Target.tables ⟨l, c⟩) := by
  have hplace := place_program (t := ⟨l, c⟩) hc
  simp only [compile, savedClash?_eq (t := ⟨l, c⟩) hc, Target.routines?_eq (t := ⟨l, c⟩) hc] at h
  dsimp only at hplace
  rw [hplace] at h
  dsimp only at h
  split at h
  · cases h
  · split at h
    · cases h
    · cases h
      exact ⟨rfl, rfl⟩

theorem compiled_of_compile {l : Layout} {c : Convention} {p : Program} (hc : c ∈ Convention.all)
    (h : compile l c = .ok p) : Compiled ⟨l, c⟩ p.assembler := by
  rw [(compile_eq_ok hc h).1]
  exact compiled_appended (t := ⟨l, c⟩) hc

/-- Every layout compiles under every standard convention, if its code is short enough. -/
theorem compile_eq {l : Layout} {c : Convention} (hc : c ∈ Convention.all)
    (hsize : Target.codeSize ⟨l, c⟩ < 2 ^ 31) :
    ∃ p, compile l c = .ok p ∧ p.convention = c ∧ p.size = Target.codeSize ⟨l, c⟩ ∧
      Compiled ⟨l, c⟩ p.assembler := by
  have hcomp := compiled_appended (t := ⟨l, c⟩) hc
  obtain ⟨image, globals, hlink⟩ := @Compiled.link _ _ trialBase hcomp hc hsize
    (.inr (by have : trialBase.toNat = 65536 := rfl; omega))
  simp only [compile, savedClash?_eq (t := ⟨l, c⟩) hc, Target.routines?_eq (t := ⟨l, c⟩) hc]
  have hplace := place_program (t := ⟨l, c⟩) hc
  simp only at hplace
  rw [hplace]
  simp only [hlink]
  refine ⟨_, rfl, rfl, ?_, hcomp⟩
  rw [codeSize_eq (t := ⟨l, c⟩) hc]
  exact size_appended _ _

end Compile

section Load

variable {a : Assembler} {base : UInt64} {image : Array UInt8} {globals : List (String × UInt64)}
  {g : Guard} {memory : ℕ → UInt8}

theorem mode_cases (hc : t.convention ∈ Convention.all) : t.mode = .bits32 ∨ t.mode = .bits64 := by
  have h : ∀ c ∈ Convention.all, c.mode = .bits32 ∨ c.mode = .bits64 := by decide
  exact h _ hc

/-- A linked image in memory, item by item. -/
theorem Compiled.lies (h : Compiled t a) (hc : t.convention ∈ Convention.all)
    (hlink : a.link base = .ok (image, globals)) (hg : g.mode = t.mode)
    (hbytes : g.Holds memory base.toNat image.toList) :
    Lies ⟨g, memory, placeOf a base g.space⟩ (base.toNat % g.space) t.items
      ((base.toNat + behind t.mode 0 t.items) % g.space) := by
  obtain ⟨hf, -, himage⟩ := (link_eq_ok_iff h.carries).1 hlink
  rw [himage] at hbytes
  rw [← hg] at hf hbytes ⊢
  exact lies_of_linked (hg ▸ mode_cases hc) (hg ▸ (linkable_items hc).encodable)
    (hg ▸ h.bound) hf hbytes

theorem Compiled.image_size (h : Compiled t a) (hc : t.convention ∈ Convention.all)
    (hlink : a.link base = .ok (image, globals)) : image.size = t.codeSize := by
  obtain ⟨hf, -, himage⟩ := (link_eq_ok_iff h.carries).1 hlink
  have hlen := length_linked hf
  rw [← himage, Nat.zero_add] at hlen
  rw [codeSize_eq hc, ← hlen]
  rfl

theorem Compiled.globals_eq (h : Compiled t a) (hc : t.convention ∈ Convention.all)
    (hlink : a.link base = .ok (image, globals)) : globals = exportsAt a base := by
  obtain ⟨-, hg, -⟩ := (link_eq_ok_iff h.carries).1 hlink
  rw [h.globalAddresses hc base] at hg
  cases hg
  rfl

/-- The mark of an exported name is in the image. -/
theorem Compiled.entry (h : Compiled t a) (hc : t.convention ∈ Convention.all)
    (hlink : a.link base = .ok (image, globals)) {name : String} {m : Mark}
    (hm : (name, m) ∈ exports) :
    codeOffset a m.label ≤ image.size ∧
      ∀ g : Guard, placeOf a base g.space m.label =
        (base.toNat + codeOffset a m.label) % g.space := by
  obtain ⟨q, hq, hqm⟩ := @exists_bound t.mode t.items m (exports_marks hc hm) 0
  have hbind := hqm ▸ h.bound q hq
  rw [codeOffset_inside hbind, h.image_size hc hlink, codeSize_eq hc]
  exact ⟨(mem_bound hq).2, fun g => placeOf_inside hbind⟩

end Load

section Size

variable {mode : Mode}

theorem behind_infix_le {xs items : List Item} (h : xs <:+: items) (o : ℕ) :
    ∃ o', behind mode o' xs ≤ behind mode o items := by
  obtain ⟨before, after, rfl⟩ := h
  rw [behind_append, behind_append]
  exact ⟨_, le_behind _ _⟩

theorem behind_map_le {α : Type} {xs : List α} {f : α → Item} {n : ℕ}
    (h : ∀ x ∈ xs, ∀ o, n ≤ ((f x).shape mode o).size) (o : ℕ) :
    o + n * xs.length ≤ behind mode o (xs.map f) := by
  induction xs generalizing o with
  | nil => simp [behind]
  | cons x rest ih =>
    have hx := h x (by simp) o
    have hrest := ih (fun y hy => h y (by simp [hy])) (o + ((f x).shape mode o).size)
    rw [List.map_cons, behind, List.length_cons, Nat.mul_add_one]
    omega

/-- Four bytes are stored by code that has at least four bytes. -/
theorem four_le_size {x : Memory} {v : ℤ} {s : X86.Shape}
    (h : (Instruction.movImmediate .dword (.memory x) v).shape mode = .ok s) : 4 ≤ s.size := by
  simp only [Instruction.shape] at h
  obtain ⟨bs, hbs, hs⟩ := shapeWith_cases h
  obtain ⟨-, s', -, rfl⟩ := Form.shape_cases hs
  cases hbs
  simp [X86.Shape.size, Width.immediate, Width.size]

/-- The code is as long as the state that it clears. -/
theorem storageSize_lt (hc : t.convention ∈ Convention.all) (hsize : t.codeSize < 2 ^ 31) :
    t.layout.storageSize < 2 ^ 31 := by
  set zeros := (List.range (t.layout.storageSize / 4)).map fun i =>
    Item.code (.movImmediate .dword (.memory (t.stateAt (4 * i))) 0) with hzeros
  have hclear : zeros <:+: t.clearState :=
    ((List.prefix_append _ _).trans (List.prefix_append _ _)).isInfix
  have hroutine : t.clearState <:+: t.deserializeItems :=
    ⟨_, _, (List.append_assoc ..).symm⟩
  obtain ⟨o, ho⟩ :=
    @behind_infix_le t.mode _ _ ((hclear.trans hroutine).trans t.deserialize_infix) 0
  have hle : o + 4 * (List.range (t.layout.storageSize / 4)).length ≤ behind t.mode o zeros := by
    refine behind_map_le (fun i hi o => ?_) o
    have hlink : Linkable t.mode [] t.clearState := clearState_linkable hc
    obtain ⟨⟨s, hs⟩, -⟩ := hlink.encodable _ (hclear.subset (List.mem_map_of_mem hi))
    have hshape := four_le_size hs
    simpa [Item.shape, hs, Except.toOption] using hshape
  rw [codeSize_eq hc] at hsize
  rw [List.length_range] at hle
  omega

/-- The code is as long as one of its tables. -/
theorem tableSize_le (hc : t.convention ∈ Convention.all) :
    t.pointer.size * t.layout.index.length ≤ t.codeSize := by
  have htable : (t.layout.index.zipIdx.map fun p => Item.code (.address
      (if p.1.isStored then (Mark.writeEntry p.2).label else Mark.writeEnd.label))) <:+:
      t.table .writeTable .writeEnd .writeEntry := (List.suffix_append [_, _] _).isInfix
  obtain ⟨o, ho⟩ := @behind_infix_le t.mode _ _ (htable.trans t.writeTable_infix) 0
  have hle := @behind_map_le t.mode _ t.layout.index.zipIdx
    (fun p => Item.code (.address
      (if p.1.isStored then (Mark.writeEntry p.2).label else Mark.writeEnd.label))) t.pointer.size
    (fun p _ o => by
      rcases mode_cases hc with h | h <;>
        simp [Item.shape, Instruction.shape, Except.toOption, X86.Shape.size, X86.Shape.room,
          Target.pointer, h, Patch.width, Mode.pointer, Width.size]) o
  rw [List.length_zipIdx] at hle
  rw [codeSize_eq hc]
  omega

end Size

end PortCodec.Program
