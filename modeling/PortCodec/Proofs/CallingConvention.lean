import PortCodec.Proofs.CompiledAccess
import PortCodec.Proofs.CompiledReading
import PortCodec.Proofs.CompiledWriting

/-! What callers of compiled codecs rely on. Whichever of the four routines is called, with whatever
state, line or numbers, it comes back to its caller with the stack pointer just above the return
address and with every register that the convention saves. -/

namespace PortCodec.Program

open X86

/-- Behind a call: the caller goes on where it wanted to, the return address is off the stack, and
the saved registers have the values that they had at the entry. -/
structure Target.Keeps (t : Target) (back : ℕ) (m m' : Machine) : Prop where
  next : m'.next = back
  stackPointer : m'.registers .rsp = m.registers .rsp + t.pointer.size
  saved : ∀ r ∈ t.convention.saved, m'.get t.pointer r = m.get t.pointer r

structure LinkedCode where
  target : Target
  image : Bytes
  base : ℕ
  address : String × Mark → ℕ

namespace LinkedCode

/-- The machine is at the entry of one of the routines, under a guard and with an address to return
to, and what it finds in memory and in its arguments keeps the contract of the routine. A line to be
read has an end; nothing is asked of the numbers of a control. -/
inductive Called (c : LinkedCode) : Guard → ℕ → Machine → Prop
  | serialize {m : Machine} (s : WritingScene) (target : s.target = c.target)
      (image : s.image = c.image) (base : s.base = c.base)
      (entry : s.entry = c.address ("serialize", .serialize)) (starts : s.Starts m) :
      Called c s.scene.guard s.back m
  | deserialize {m : Machine} (s : ReadingScene) (target : s.target = c.target)
      (image : s.image = c.image) (base : s.base = c.base)
      (entry : s.entry = c.address ("deserialize", .deserialize)) (starts : s.Starts m) :
      Called c s.scene.guard s.back m
  | read {m : Machine} (s : AccessScene) (target : s.target = c.target)
      (image : s.image = c.image) (base : s.base = c.base)
      (entry : s.entry = c.address ("read", .read))
      (table : s.table = c.address ("read_table", .readTable)) (starts : s.Starts s.reading m) :
      Called c s.reading.guard s.back m
  | write {m : Machine} (s : AccessScene) (value : ℕ) (target : s.target = c.target)
      (image : s.image = c.image) (base : s.base = c.base)
      (entry : s.entry = c.address ("write", .write))
      (table : s.table = c.address ("write_table", .writeTable)) (starts : s.Starts s.writing m)
      (passes : s.writing.Passes m 4 value) : Called c s.writing.guard s.back m

end LinkedCode

section Routines

variable {m m' : Machine}

theorem WritingScene.Ends.keeps {s : WritingScene} (h : s.Ends m m') : s.target.Keeps s.back m m' :=
  ⟨h.next, h.stackPointer, h.saved⟩

theorem ReadingScene.Ends.keeps {s : ReadingScene} (h : s.Ends m m') : s.target.Keeps s.back m m' :=
  ⟨h.next, h.stackPointer, h.saved⟩

theorem AccessScene.Returns.keeps {s : AccessScene} (h : s.Returns m m') :
    s.target.Keeps s.back m m' :=
  ⟨h.next, h.stackPointer, h.saved⟩

end Routines

namespace LinkedCode

variable {c : LinkedCode} {guard : Guard} {back : ℕ} {m : Machine}

/-- Code that can be loaded keeps the convention in every call. -/
theorem Called.keeps {p : Port} (h : c.Called guard back m) (hv : p.Valid)
    (hl : c.target.layout = Layout.plan p) (hc : c.target.convention ∈ Convention.all)
    (hsize : c.target.codeSize < 2 ^ 31) (hload : Loadable c.target c.image c.base c.address) :
    Eventually guard (c.target.Keeps back m) m := by
  obtain ⟨t, code, start, address⟩ := c
  cases h with
  | serialize s target image base entry starts =>
    dsimp only at target image base
    subst target image base
    exact (starts.loaded hv hl hc hsize hload entry).mono fun _ hm => hm.keeps
  | deserialize s target image base entry starts =>
    dsimp only at target image base
    subst target image base
    exact (starts.loaded hv hl hc hsize hload entry).mono fun _ hm => hm.keeps
  | read s target image base entry table starts =>
    dsimp only at target image base
    subst target image base
    exact (starts.loaded_read hl hc hsize hload entry table).mono fun _ hm => hm.toReturns.keeps
  | write s value target image base entry table starts passes =>
    dsimp only at target image base
    subst target image base
    -- the code takes the low half of whatever is passed as the value
    have hvalue : value % 2 ^ 16 = (UInt16.ofNat value).toInt16.toUInt16.toNat := by simp
    exact (starts.loaded_write passes hvalue hl hc hsize hload entry table).mono
      fun _ hm => hm.toReturns.keeps

end LinkedCode

/-- The compiled code of every valid port keeps its convention in every call, wherever it is
linked. -/
theorem convention_kept {p : Port} {convention : Convention} (hv : p.validate = .ok ())
    (hc : convention ∈ Convention.all)
    (hsize : Target.codeSize ⟨Layout.plan p, convention⟩ < 2 ^ 31) :
    ∃ program, compile (Layout.plan p) convention = .ok program ∧
      program.size = Target.codeSize ⟨Layout.plan p, convention⟩ ∧
      (∀ base : UInt64, convention.mode = .bits64 ∨ base.toNat + program.size < 2 ^ 32 →
        ∃ image globals, program.link base = .ok (image, globals)) ∧
      ∀ base image globals, program.link base = .ok (image, globals) →
        image.size = program.size ∧ ∃ address : String × Mark → UInt64,
          (∀ x ∈ exports, (x.1, address x) ∈ globals) ∧
          ∀ guard back m,
            LinkedCode.Called ⟨⟨Layout.plan p, convention⟩, image.toList, base.toNat,
              fun x => (address x).toNat⟩ guard back m →
            Eventually guard (Target.Keeps ⟨Layout.plan p, convention⟩ back m) m := by
  have hvalid := (Port.validate_ok_iff p).1 hv
  obtain ⟨program, hcompile, hprogram, hlink, hcode⟩ := @linked_code (Layout.plan p) _ hc hsize
  refine ⟨program, hcompile, hprogram, hlink, fun base image globals hlinked => ?_⟩
  obtain ⟨himage, address, hglobals, hload⟩ := hcode base image globals hlinked
  exact ⟨himage, address, hglobals, fun guard back m hm => hm.keeps hvalid rfl hc hsize hload⟩

/-- The machine with a value of its own in every register that has to be saved. -/
def occupied (m : Machine) : Machine :=
  { m with registers := fun r =>
      if r ∈ Convention.sysv.saved then 0xab00 + r.number.toNat else m.registers r }

/-- A control of a tenth pad, where there are two. -/
def strayAccess (image : Bytes) (entry table : ℕ) : AccessScene :=
  { padAccess image entry table with controller := 9 }

def strayMachine (image : Bytes) (entry : ℕ) : Machine :=
  let m := occupied (padAccessMachine image entry)
  { m with registers := Function.update m.registers .rdx 9 }

theorem Scene.Starts.of_registers {s : Scene} {m m' : Machine} (h : s.Starts m)
    (hsp : m'.registers .rsp = m.registers .rsp) (hmem : m'.memory = m.memory)
    (hnext : m'.next = m.next) : s.Starts m' where
  apart := h.apart
  inside := h.inside
  room := h.room
  size := h.size
  code := hmem ▸ h.code
  state := hmem ▸ h.state
  back := hmem ▸ h.back
  back_lt := h.back_lt
  stackPointer := hsp.trans h.stackPointer
  next := hnext.trans h.next

theorem Target.Keeps.of_occupied {l : Layout} {back : ℕ} {m m' : Machine}
    (h : Target.Keeps ⟨l, .sysv⟩ back m m')
    (hm : ∀ r ∈ Convention.sysv.saved, m.registers r = 0xab00 + r.number.toNat) :
    ∀ r ∈ Convention.sysv.saved, m'.registers r % 2 ^ 64 = 0xab00 + r.number.toNat := by
  intro r hr
  have hspan : Width.span .qword = 2 ^ 64 := by decide
  have hkept : m'.registers r % Width.span .qword = m.registers r % Width.span .qword :=
    h.saved r hr
  have hnumber := r.number.toNat_lt
  rw [hspan, hm r hr] at hkept
  omega

/-- A line with five digits of an axis is written, and a control that is not there is asked for;
both leave the saved registers as they were. -/
theorem padCalls_convention_kept : Layout.twoPads.validate = .ok () ∧
    Convention.sysv ∈ Convention.all ∧
    Target.codeSize ⟨Layout.plan Layout.twoPads, .sysv⟩ < 2 ^ 31 ∧
    ∃ program image globals serialize read readTable,
      compile (Layout.plan Layout.twoPads) .sysv = .ok program ∧
      program.link 0x7f0000000000 = .ok (image, globals) ∧ ("serialize", serialize) ∈ globals ∧
      ("read", read) ∈ globals ∧ ("read_table", readTable) ∈ globals ∧
      Eventually (padLine image.toList serialize.toNat).scene.guard
        (fun m => m.next = 0x5000 ∧ m.registers .rsp = 0x30048 ∧
          ∀ r ∈ Convention.sysv.saved, m.registers r % 2 ^ 64 = 0xab00 + r.number.toNat)
        (occupied (padLineMachine image.toList serialize.toNat)) ∧
      Eventually (strayAccess image.toList read.toNat readTable.toNat).reading.guard
        (fun m => m.next = 0x5000 ∧ m.registers .rsp = 0x30008 ∧
          ∀ r ∈ Convention.sysv.saved, m.registers r % 2 ^ 64 = 0xab00 + r.number.toNat)
        (strayMachine image.toList read.toNat) := by
  have hv : Layout.twoPads.validate = .ok () := rfl
  have hc : Convention.sysv ∈ Convention.all := by decide
  have hcode : Target.codeSize ⟨Layout.plan Layout.twoPads, .sysv⟩ < 2 ^ 31 := by
    rw [@codeSize_eq ⟨Layout.plan Layout.twoPads, .sysv⟩ hc]
    decide +kernel
  obtain ⟨program, hcompile, hsize, hlink, hrun⟩ := convention_kept hv hc hcode
  obtain ⟨image, globals, himage⟩ := hlink 0x7f0000000000 (.inl rfl)
  obtain ⟨hlen, address, hglobals, hkeeps⟩ := hrun _ _ _ himage
  have himagelt : image.toList.length < 2 ^ 31 := by
    rw [Array.length_toList]
    omega
  have hwrite := hkeeps _ _ (occupied (padLineMachine image.toList _))
    (.serialize (padLine image.toList _) rfl rfl rfl rfl
      ⟨(padLine_starts himagelt).scene.of_registers rfl rfl rfl, rfl, rfl⟩)
  have hread := hkeeps _ _ (strayMachine image.toList _)
    (.read (strayAccess image.toList _ _) rfl rfl rfl rfl rfl
      ⟨(padAccess_starts himagelt (by decide)).of_registers rfl rfl rfl, rfl, rfl, rfl⟩)
  refine ⟨hv, hc, hcode, program, image, globals, _, _, _, hcompile, himage,
    hglobals ("serialize", .serialize) (by decide), hglobals ("read", .read) (by decide),
    hglobals ("read_table", .readTable) (by decide), hwrite.mono fun m hm => ?_,
    hread.mono fun m hm => ?_⟩
  · exact ⟨hm.next, hm.stackPointer, hm.of_occupied fun r hr => if_pos hr⟩
  · refine ⟨hm.next, hm.stackPointer, hm.of_occupied fun r hr => ?_⟩
    have hne : r ≠ .rdx := by
      rintro rfl
      exact absurd hr (by decide)
    exact (Function.update_of_ne hne _ _).trans (if_pos hr)

end PortCodec.Program
