import PortCodec.Proofs.Encoding.Emission
import PortCodec.Proofs.Linking.Edited

/-! An emitter that has met an operand which cannot be encoded writes nothing more. Its fault is
that of the first instruction without a shape, however many follow, and up to there every
instruction only adds to the code. -/

namespace PortCodec.Assembler

open Assembly

variable {a b c : Assembler}

structure Appends (a b : Assembler) : Prop where
  code : a.code.toList <+: b.code.toList
  relocations : a.relocations.toList <+: b.relocations.toList
  labels : a.labels.toList <+: b.labels.toList
  globals : b.globals = a.globals

theorem Appends.refl (a : Assembler) : Appends a a :=
  ⟨List.prefix_refl _, List.prefix_refl _, List.prefix_refl _, rfl⟩

theorem Appends.trans (h : Appends a b) (h' : Appends b c) : Appends a c :=
  ⟨h.code.trans h'.code, h.relocations.trans h'.relocations, h.labels.trans h'.labels,
    h'.globals.trans h.globals⟩

theorem Addition.appends (h : Addition a b) : Appends a b := by
  obtain ⟨hcode, ⟨more, hmore, -⟩, -⟩ := h.change.grows
  refine ⟨hcode, ⟨more, hmore.symm⟩, ?_, ?_⟩
  · cases h with
    | bytes | relocate => exact List.prefix_refl _
    | label hx => simp [addLabel]
  · cases h <;> rfl

theorem Additions.appends (h : Additions a b) : Appends a b := by
  induction h with
  | refl => exact .refl a
  | tail _ hstep ih => exact ih.trans hstep.appends

end PortCodec.Assembler

namespace PortCodec.X86.Emitter

open Assembly (Misuse)
open Assembler (Edit Appends Grows)

variable {e : Emitter} {f : Form}

section Reports

/-- What an emitter without a fault reports of a shape: the fault that keeps it from being written,
unless a label was misused before that was found. -/
structure Reports (mode : Mode) (r : Emitter × Option Misuse) (x : Except OperandFault Shape) :
    Prop where
  mode_eq : r.1.mode = mode
  error_iff : ∀ fault, r.1.error = some fault ↔ x = .error fault ∧ r.2 = none

variable {mode : Mode} {r : Emitter × Option Misuse} {x : Except OperandFault Shape}

theorem reports_ok (hmode : r.1.mode = mode) (he : r.1.error = none) (hx : ∃ s, x = .ok s) :
    Reports mode r x := by
  obtain ⟨s, rfl⟩ := hx
  exact ⟨hmode, by simp [he]⟩

theorem fail_of_error_eq_none (he : e.error = none) (fault : OperandFault) :
    e.fail fault = { e with error := some fault } := by
  rw [fail, if_pos (by simp [he])]

theorem reports_fail (he : e.error = none) (fault : OperandFault) :
    Reports e.mode (e.fail fault, none) (.error fault) := by
  rw [fail_of_error_eq_none he]
  exact ⟨rfl, by simp⟩

theorem reports_misuse (he : e.error = none) (misuse : Misuse) (x : Except OperandFault Shape) :
    Reports e.mode (e, some misuse) x := ⟨rfl, by simp [he]⟩

theorem Reports.map (h : Reports mode r x) (g : Shape → Shape) : Reports mode r (x.map g) := by
  refine ⟨h.mode_eq, fun fault => ?_⟩
  rw [h.error_iff]
  cases x <;> simp [Except.map]

theorem memory_reports (he : e.error = none) {m : Memory} (hm : f.operand = .memory m) :
    Reports e.mode (e.memory f.field.low m f.immediate.length) (f.operandShape e.mode) := by
  unfold memory Form.operandShape
  simp only [hm]
  cases hl : m.label with
  | none =>
    dsimp only
    cases basedOperand f.field.low m with
    | error fault => exact reports_fail he fault
    | ok bs => exact reports_ok rfl he ⟨_, rfl⟩
  | some l =>
    dsimp only
    unfold labelMemory
    dsimp only
    split
    · exact reports_misuse he _ _
    next assembler target _ =>
      cases labelOperand e.mode f.field.low m f.immediate.length with
      | error fault => exact @reports_fail { e with assembler } he fault
      | ok x => exact reports_ok rfl he ⟨_, rfl⟩

theorem form_reports (he : e.error = none) (f : Form) :
    Reports e.mode (e.form f) (f.shape e.mode) := by
  unfold form Form.shape
  rw [if_neg (by simp [he])]
  cases f.fault? e.mode with
  | some fault => exact reports_fail he fault
  | none =>
    dsimp only
    cases hop : f.operand with
    | register r =>
      simp only [Form.operandShape, hop]
      exact reports_ok rfl he ⟨_, rfl⟩
    | memory m =>
      have hmemory := memory_reports (show (e.bytes f.head).error = none from he) hop
      dsimp only
      generalize (e.bytes f.head).memory f.field.low m f.immediate.length = r at hmemory ⊢
      obtain ⟨e', misuse⟩ := r
      -- the immediate is written behind the operand even if that has a fault
      cases misuse <;> exact ⟨hmemory.mode_eq, (hmemory.map _).error_iff⟩

theorem formWith_reports (he : e.error = none) (w : Width) (v : ℤ) (f : Bytes → Form) :
    Reports e.mode (e.formWith w v f) (shapeWith e.mode (immediate w v) f) := by
  unfold formWith immediateBytes
  cases himm : immediate w v with
  | error fault =>
    -- the form is tried with the number cut, and its guard stops it
    have hfault : (e.fail fault).error = some fault := by rw [fail_of_error_eq_none he]
    simp only [form_of_fault hfault]
    exact reports_fail he fault
  | ok bs => exact form_reports he (f bs)

theorem shortForm_reports (he : e.error = none) (w : Width) (opcode : UInt8) (r : Register) :
    Reports e.mode (e.shortForm w opcode r, none) (shortShape e.mode w opcode r []) := by
  unfold shortForm shortShape
  rw [if_neg (by simp [he])]
  by_cases hr : r.existsIn e.mode
  · rw [if_pos hr, if_pos hr]
    exact reports_ok rfl he ⟨_, rfl⟩
  · rw [if_neg hr, if_neg hr]
    exact reports_fail he _

theorem shortFormWith_reports (he : e.error = none) (w : Width) (opcode : UInt8) (r : Register)
    (v : ℤ) : Reports e.mode (e.shortFormWith w opcode r v, none)
      (match immediate w v with
        | .error fault => .error fault
        | .ok bs => shortShape e.mode w opcode r bs) := by
  cases himm : immediate w v with
  | error fault =>
    have hfault : (e.fail fault).error = some fault := by rw [fail_of_error_eq_none he]
    simp only [shortFormWith, immediateBytes, himm, shortForm_of_fault hfault, hfault,
      Option.isNone_some, Bool.false_eq_true, ↓reduceIte]
    exact reports_fail he fault
  | ok bs =>
    by_cases hr : r.existsIn e.mode
    · have hs : shortShape e.mode w opcode r bs = .ok _ := if_pos hr
      rw [shortFormWith_eq he himm hs]
      exact reports_ok rfl he ⟨_, hs⟩
    · have hfault : (e.fail (.noRegister r e.mode)).error = some (.noRegister r e.mode) := by
        rw [fail_of_error_eq_none he]
      simp only [shortFormWith, immediateBytes, himm, shortForm, shortShape, he, hr, hfault,
        Option.isSome_none, Option.isNone_some, Bool.false_eq_true, ↓reduceIte]
      exact reports_fail he _

theorem jump_reports (he : e.error = none) (opcode : Bytes) (patch : Assembly.Patch) (l : ℤ) :
    Reports e.mode (e.jump opcode patch.width patch l, none)
      (.ok { head := opcode, field := some (patch, l) }) := by
  rw [jump_eq he]
  exact reports_ok rfl he ⟨_, rfl⟩

/-- An instruction that meets no earlier fault sets that of its own shape. -/
theorem emit_reports (he : e.error = none) (i : Instruction) :
    Reports e.mode (e.emit i) (i.shape e.mode) := by
  cases i with
  | mov | load | loadZero | loadSign | alu | test | inc | dec | neg | div | shl | shr | lea
  | jmpMemory => exact form_reports he _
  | testImmediate => exact formWith_reports he _ _ _
  | aluImmediate op w dst v =>
    simp only [emit, Instruction.shape]
    split_ifs
    · exact formWith_reports he _ _ _
    · exact form_reports he _
    · exact formWith_reports he _ _ _
  | imul w dst src v =>
    simp only [emit, Instruction.shape]
    split_ifs
    · exact form_reports he _
    · exact formWith_reports he _ _ _
  | movImmediate w dst v =>
    cases dst with
    | memory m => exact formWith_reports he _ _ _
    | register r =>
      simp only [emit, Instruction.shape]
      split_ifs
      · exact formWith_reports he _ _ _
      · exact shortFormWith_reports he _ _ _ _
  | push | pop => exact shortForm_reports he _ _ _
  | ret =>
    rw [emit, ret_eq he]
    exact reports_ok rfl he ⟨_, rfl⟩
  | jmp l | jmpShort l | jcc c l | jccShort c l | call l =>
    exact jump_reports he _ _ l
  | address l =>
    rw [emit, address_eq he]
    exact reports_ok rfl he ⟨_, rfl⟩

end Reports

/-- What is done with an emitter: it writes an instruction, or the code that it writes to is
edited. -/
inductive Call
  | instruction (i : Instruction)
  | edit (x : Edit)

def Call.run (e : Emitter) : Call → Emitter
  | .instruction i => (e.emit i).1
  | .edit x => { e with assembler := x.apply e.assembler }

def after (e : Emitter) (calls : List Call) : Emitter := calls.foldl Call.run e

/-- The calls that are no instructions. -/
def edits (calls : List Call) : List Edit :=
  calls.filterMap fun
    | .instruction _ => none
    | .edit x => some x

section Runs

variable {fault : OperandFault} {calls : List Call}

theorem after_append (e : Emitter) (calls later : List Call) :
    after e (calls ++ later) = after (after e calls) later := List.foldl_append

/-- Once there is a fault, instructions do nothing and the fault stays. -/
theorem after_of_fault (h : e.error = some fault) (calls : List Call) :
    after e calls = { e with assembler := e.assembler.edited (edits calls) } := by
  induction calls generalizing e with
  | nil => rfl
  | cons c calls ih =>
    cases c with
    | instruction i =>
      change after (e.emit i).1 calls = _
      rw [emit_of_fault h]
      exact ih h
    | edit x => exact @ih { e with assembler := x.apply e.assembler } h

theorem Call.mode_run (e : Emitter) (c : Call) : (c.run e).mode = e.mode := by
  cases c with
  | instruction i =>
    cases he : e.error with
    | none => exact (emit_reports he i).mode_eq
    | some fault => rw [Call.run, emit_of_fault he]
  | edit x => rfl

theorem mode_after (e : Emitter) (calls : List Call) : (after e calls).mode = e.mode := by
  induction calls generalizing e with
  | nil => rfl
  | cons c calls ih => exact (ih (c.run e)).trans (c.mode_run e)

theorem Call.grows_run (e : Emitter) (c : Call) : Grows e.assembler (c.run e).assembler := by
  cases c with
  | instruction i => exact (Assembler.additions_emit e i).changes.grows
  | edit x => exact (Assembler.changes_apply e.assembler x).grows

theorem grows_after (e : Emitter) (calls : List Call) :
    Grows e.assembler (after e calls).assembler := by
  induction calls generalizing e with
  | nil => exact .refl _
  | cons c calls ih => exact (c.grows_run e).trans (ih (c.run e))

/-- There is an instruction with a fault of its shape, none before it, and no misuse of a label that
comes first. -/
def FirstFault (e : Emitter) (calls : List Call) (fault : OperandFault) : Prop :=
  ∃ before i later, calls = before ++ .instruction i :: later ∧ (after e before).error = none ∧
    i.shape e.mode = .error fault ∧ ((after e before).emit i).2 = none

theorem firstFault_of_error (he : e.error = none) (h : (after e calls).error = some fault) :
    FirstFault e calls fault := by
  induction calls generalizing e with
  | nil => cases he.symm.trans h
  | cons c calls ih =>
    cases hc : (c.run e).error with
    | none =>
      -- the first fault is further on, where the mode is still the same
      obtain ⟨before, i, later, rfl, hbefore, hshape, hmisuse⟩ := ih hc h
      rw [c.mode_run e] at hshape
      exact ⟨c :: before, i, later, rfl, hbefore, hshape, hmisuse⟩
    | some fault' =>
      -- this call made it, and what follows does not change it
      have hsame : (after (c.run e) calls).error = (c.run e).error := by rw [after_of_fault hc]
      have hnow : (c.run e).error = some fault := hsame.symm.trans h
      cases c with
      | instruction i =>
        exact ⟨[], i, calls, rfl, he, (emit_reports he i).error_iff fault |>.1 hnow⟩
      | edit x => cases he.symm.trans hnow

theorem error_of_firstFault (h : FirstFault e calls fault) :
    (after e calls).error = some fault := by
  obtain ⟨before, i, later, rfl, hbefore, hshape, hmisuse⟩ := h
  rw [← mode_after e before] at hshape
  have hnow := ((emit_reports hbefore i).error_iff fault).2 ⟨hshape, hmisuse⟩
  rw [after_append]
  change (after ((after e before).emit i).1 later).error = _
  rw [after_of_fault hnow, ← hnow]

end Runs

/-- What can be relied on of an emitter after any calls, whatever comes later. -/
structure Sticks (e : Emitter) (calls : List Call) : Prop where
  grows : ∀ later, Grows (after e calls).assembler (after e (calls ++ later)).assembler
  appends : ∀ i, Appends (after e calls).assembler ((after e calls).emit i).1.assembler
  /-- There is a fault if there was one to begin with, or if an instruction had none before it and
  has no shape. -/
  error_iff : ∀ fault, (after e calls).error = some fault ↔
    e.error = some fault ∨ e.error = none ∧ FirstFault e calls fault
  /-- With a fault, only edits count. -/
  stays : (after e calls).error.isSome → ∀ later,
    after e (calls ++ later) =
      { after e calls with assembler := (after e calls).assembler.edited (edits later) }
  silent : (after e calls).error.isSome → ∀ later i,
    (after e (calls ++ later)).emit i = (after e (calls ++ later), none)

/-- The first fault stays, and what was written before it stays as it is. -/
theorem sticks (e : Emitter) (calls : List Call) : Sticks e calls := by
  have hstays (h : (after e calls).error.isSome) (later : List Call) : after e (calls ++ later) =
      { after e calls with assembler := (after e calls).assembler.edited (edits later) } := by
    obtain ⟨fault, hfault⟩ := Option.isSome_iff_exists.1 h
    rw [after_append, after_of_fault hfault]
  constructor
  case grows => exact fun later => after_append e calls later ▸ grows_after _ later
  case appends => exact fun i => (Assembler.additions_emit _ i).appends
  case error_iff =>
    intro fault
    cases he : e.error with
    | none =>
      simp only [reduceCtorEq, true_and, false_or]
      exact ⟨firstFault_of_error he, error_of_firstFault⟩
    | some fault' => simp [after_of_fault he, he]
  case stays => exact hstays
  case silent =>
    intro h later i
    obtain ⟨fault, hfault⟩ := Option.isSome_iff_exists.1 h
    have hlater : (after e (calls ++ later)).error = some fault := by rw [hstays h later, ← hfault]
    exact emit_of_fault hlater i

/-- A load that has no address after its opcode is written. -/
def loadNowhere : List Call :=
  [.instruction (.push .rax), .instruction (.load .dword .rax {}), .instruction .ret]

theorem loadNowhere_sticks : (after { mode := .bits64 } loadNowhere).error = some .noBase ∧
    (after { mode := .bits64 } loadNowhere).assembler.code = #[0x50, 0x8b] ∧
    ∀ later i, (after { mode := .bits64 } (loadNowhere ++ later)).emit i =
      (after { mode := .bits64 } (loadNowhere ++ later), none) :=
  ⟨rfl, rfl, (sticks { mode := .bits64 } loadNowhere).silent rfl⟩

end PortCodec.X86.Emitter
