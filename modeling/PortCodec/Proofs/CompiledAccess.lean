import PortCodec.Proofs.Running.Access
import PortCodec.Proofs.Running.Scene

/-! Compiled codecs read and write single controls as their layouts do: whatever the numbers of the
control, the state, the port and the address, the code returns, and its jump reads no address but
one of its table. -/

namespace PortCodec

namespace Program

open X86

/-- A control is to be read or written by compiled code: what is in memory, and where. -/
structure AccessScene where
  target : Target
  /-- The linked code, and the addresses of the routine and of its table. -/
  image : Bytes
  base : ℕ
  entry : ℕ
  table : ℕ
  /-- The state, which may have more bytes than the layout. -/
  bytes : Bytes
  state : ℕ
  /-- The numbers of the control, as they are passed. -/
  controller : ℕ
  control : ℕ
  /-- The stack, from the lowest address to the return address. -/
  low : ℕ
  top : ℕ
  back : ℕ

namespace AccessScene

def fields (s : AccessScene) : Span := ⟨s.state, s.target.layout.storageSize⟩

def slots (s : AccessScene) : Span :=
  ⟨s.table, s.target.pointer.size * s.target.layout.index.length⟩

/-- Only the state and the table may be read, besides the stack, of which no more is used than the
registers to be saved need, and jumps go through entries of the table only. -/
def scene (s : AccessScene) (arity : ℕ) (writes : List Span) : Scene where
  target := s.target
  image := s.image
  base := s.base
  entry := s.entry
  bytes := s.bytes
  state := s.state
  low := s.low
  top := s.top
  back := s.back
  arity
  depth := s.target.frame.saved.length * s.target.pointer.size
  others := []
  reads := [s.fields, s.slots]
  writes
  jumps x := (List.range s.target.layout.index.length).any fun n =>
    x = s.table + s.target.pointer.size * n

/-- The scene for reading, in which nothing but the stack may be written. -/
def reading (s : AccessScene) : Scene := s.scene 4 []

/-- The scene for writing, in which the state may be written too. -/
def writing (s : AccessScene) : Scene := s.scene 5 [s.fields]

/-- The numbers of the control, as they are understood. -/
def numbers (s : AccessScene) : ℤ × ℤ :=
  (s.target.pointer.toInt s.controller, s.target.pointer.toInt s.control)

structure Starts (s : AccessScene) (c : Scene) (m : Machine) : Prop where
  scene : c.Starts m
  first : c.Passes m 1 s.state
  second : c.Passes m 2 s.controller
  third : c.Passes m 3 s.control

structure Returns (s : AccessScene) (m m' : Machine) : Prop where
  next : m'.next = s.back
  stackPointer : m'.registers .rsp = m.registers .rsp + s.target.pointer.size
  saved : ∀ r ∈ s.target.convention.saved,
    m'.registers r % s.target.pointer.span = m.registers r % s.target.pointer.span

/-- Behind a call to read: the value is in the low half of the result, and memory is unchanged. -/
structure EndsReading (s : AccessScene) (m m' : Machine) : Prop extends Returns s m m' where
  value : m'.registers .rax % 2 ^ 16 =
    (s.target.layout.read s.bytes s.numbers.1 s.numbers.2).toUInt16.toNat
  others : ∀ x, s.reading.stack.contains x = false → m'.memory x = m.memory x

/-- Behind a call to write: the state has the value, and other memory is unchanged. -/
structure EndsWriting (s : AccessScene) (v : Int16) (m m' : Machine) :
    Prop extends Returns s m m' where
  state : Lays m'.memory s.state (s.target.layout.write s.bytes s.numbers.1 s.numbers.2 v)
  others : ∀ x, s.fields.contains x = false → s.writing.stack.contains x = false →
    m'.memory x = m.memory x

def arguments (s : AccessScene) (value : ℕ) (i : ℕ) : ℕ :=
  match i with
  | 1 => s.state
  | 2 => s.controller
  | 3 => s.control
  | _ => value

variable {s : AccessScene} {m : Machine} {place : ℤ → ℕ} {arity value : ℕ} {writes : List Span}
  {mark table : Mark}

theorem fields_contains {i : ℕ} (hi : i < s.target.layout.storageSize) :
    s.fields.contains (s.state + i) = true := by
  rw [Span.contains_iff]
  simp only [fields, Span.stop]
  omega

theorem accesses (h : (s.scene arity writes).Starts m) (hc : s.target.convention ∈ Convention.all)
    (hsize : s.target.codeSize < 2 ^ 31) (hw : ∀ w ∈ writes, w = s.fields)
    (hcode : ∃ a b, Lies ((s.scene arity writes).call m place).site a s.target.items b)
    (htable : place table.label = s.table)
    (hpasses : ∀ i, 0 < i → i < arity → (s.scene arity writes).Passes m i (s.arguments value i)) :
    ((s.scene arity writes).call m place).Accesses mark table arity (s.arguments value) := by
  obtain ⟨hcodebuffer, -, hbufferstack, hframebuffer, -, -⟩ := h.apart_cases
  have hwrites : ∀ w ∈ (s.scene arity writes).writes,
      (s.scene arity writes).code.Apart w ∧ (s.scene arity writes).frame.Apart w := by
    intro w hmem
    obtain rfl := hw w hmem
    exact ⟨h.apart_fields hcodebuffer, h.apart_fields hframebuffer⟩
  have hfit : Fitting ((s.scene arity writes).call m place).site s.target :=
    h.fitting hc fun w hmem => (hwrites w hmem).1
  have hword : ((s.scene arity writes).call m place).site.word = s.target.pointer.size :=
    hfit.word_eq
  have hsaved : ((s.scene arity writes).call m place).saved =
      s.target.frame.saved.length * s.target.pointer.size := by rw [← hword]; rfl
  have htop : ((s.scene arity writes).call m place).top = s.top := h.stackPointer
  have hroom : s.low + s.target.frame.saved.length * s.target.pointer.size ≤ s.top := h.room
  have hbytes : s.target.layout.storageSize ≤ s.bytes.length := h.size
  have hfields : ((s.scene arity writes).call m place).size = s.target.layout.storageSize := rfl
  have hinside := h.inside (s.scene arity writes).code (by simp [Scene.spans])
  have hbuffer := h.inside (s.scene arity writes).buffer (by simp [Scene.spans])
  have hbufferspan : (s.scene arity writes).buffer = ⟨s.state, s.bytes.length⟩ := rfl
  have hstackspan : (s.scene arity writes).stack = ⟨s.low, s.top - s.low⟩ := rfl
  rw [hbufferspan] at hbuffer
  rw [hbufferspan, hstackspan] at hbufferstack
  simp only [Span.stop] at hbuffer
  simp only [Span.Apart, Span.stop] at hbufferstack
  exact {
    framed := h.framed hc hwrites hcode le_rfl hsaved.le
    executable_lt := by
      intro x hx
      have hx := (Span.contains_iff.1 hx).2
      exact lt_of_le_of_lt hx hinside
    table_lt := by
      rw [hword]
      exact (tableSize_le hc).trans_lt hsize
    reads_table := by
      intro i hi
      rw [hword] at hi
      refine Scene.readable_of (t := s.slots) (by simp [scene]) ?_
      change s.slots.contains (place table.label + i) = true
      rw [htable, Span.contains_iff]
      simp only [slots, Span.stop]
      exact ⟨Nat.le_add_right _ _, Nat.add_lt_add_left hi _⟩
    jumps_table := by
      intro n hn
      rw [hword]
      change List.any _ (fun i => decide (place table.label + _ = _)) = true
      rw [htable, List.any_eq_true]
      exact ⟨n, List.mem_range.2 hn, decide_eq_true rfl⟩
    passes := fun i hpos hi => (hpasses i hpos hi).site
    size_lt := storageSize_lt hc hsize
    state_le := by
      change s.state + _ ≤ (s.scene arity writes).guard.space
      omega
    reads_state := fun i hi =>
      Scene.readable_of (t := s.fields) (by simp [scene]) (fields_contains hi)
    apart := by
      change s.state + _ ≤ _ ∨ _ ≤ s.state
      omega }

theorem returns {k : Call} {m' : Machine} (hk : k = (s.scene arity writes).call m place)
    (hfit : Fitting k.site s.target) (hleft : k.Left m') : s.Returns m m' := by
  subst hk
  refine ⟨hleft.next, ?_, ?_⟩
  · rw [← hfit.word_eq]
    exact hleft.stackPointer
  · rw [← hfit.space]
    exact hleft.saved

/-- What is outside the stack is outside the part of it that a call uses. -/
theorem outside_saved {k : Call} {x : ℕ} (h : (s.scene arity writes).Starts m)
    (hk : k = (s.scene arity writes).call m place) (hfit : Fitting k.site s.target)
    (hx : (s.scene arity writes).stack.contains x = false) : x < k.top - k.saved ∨ k.top ≤ x := by
  subst hk
  have htop : ((s.scene arity writes).call m place).top = s.top := h.stackPointer
  have hroom : s.low + s.target.frame.saved.length * s.target.pointer.size ≤ s.top := h.room
  have hsaved : ((s.scene arity writes).call m place).saved =
      s.target.frame.saved.length * s.target.pointer.size := by rw [← hfit.word_eq]; rfl
  have hstackspan : (s.scene arity writes).stack = ⟨s.low, s.top - s.low⟩ := rfl
  rw [hstackspan, Span.contains_eq_false_iff] at hx
  simp only [Span.stop] at hx
  omega

/-- Code that lies at its places reads the control. -/
theorem Starts.read (h : s.Starts s.reading m) (hc : s.target.convention ∈ Convention.all)
    (hsize : s.target.codeSize < 2 ^ 31) (hl : s.target.layout.Indexed)
    (hin : ∀ e ∈ s.target.layout.index, e.Within (List.replicate s.target.layout.storageSize 0))
    (hcode : ∃ a b, Lies (s.reading.call m place).site a s.target.items b)
    (hentry : place Mark.read.label = s.entry) (htable : place Mark.readTable.label = s.table) :
    Eventually s.reading.guard (s.EndsReading m) m := by
  have hk : (s.reading.call m place).Accesses .read .readTable 4 (s.arguments 0) := by
    refine accesses h.scene hc hsize (by simp) hcode htable fun i hpos hi => ?_
    obtain rfl | rfl | rfl : i = 1 ∨ i = 2 ∨ i = 3 := by omega
    · exact h.first
    · exact h.second
    · exact h.third
  have hfit : Fitting (s.reading.call m place).site s.target := hk.framed.fitting
  have hbytes : s.target.layout.storageSize ≤ s.bytes.length := h.scene.size
  have hstate (i : ℕ) (hi : i < s.target.layout.storageSize) :
      m.memory (s.state + i) = s.bytes.byteAt i :=
    h.scene.state i (hi.trans_le hbytes)
  have hrun := Call.read_run hk hl hin hstate
  rw [h.scene.enters hentry] at hrun
  exact hrun.mono fun m' hm' => ⟨returns rfl hfit hm'.left, hm'.result, fun x hx =>
    hm'.others x (outside_saved h.scene rfl hfit hx)⟩

/-- Code that lies at its places writes the control. -/
theorem Starts.write {v : Int16} (h : s.Starts s.writing m) (hvalue : s.writing.Passes m 4 value)
    (hv : value % 2 ^ 16 = v.toUInt16.toNat) (hc : s.target.convention ∈ Convention.all)
    (hsize : s.target.codeSize < 2 ^ 31) (hl : s.target.layout.Indexed)
    (hin : ∀ e ∈ s.target.layout.index, e.Within (List.replicate s.target.layout.storageSize 0))
    (hrest : ∀ i, s.target.layout.storageSize ≤ i →
      (s.target.layout.write s.bytes s.numbers.1 s.numbers.2 v).byteAt i = s.bytes.byteAt i)
    (hcode : ∃ a b, Lies (s.writing.call m place).site a s.target.items b)
    (hentry : place Mark.write.label = s.entry) (htable : place Mark.writeTable.label = s.table) :
    Eventually s.writing.guard (s.EndsWriting v m) m := by
  have hk : (s.writing.call m place).Accesses .write .writeTable 5 (s.arguments value) := by
    refine accesses h.scene hc hsize (by simp) hcode htable fun i hpos hi => ?_
    obtain rfl | rfl | rfl | rfl : i = 1 ∨ i = 2 ∨ i = 3 ∨ i = 4 := by omega
    · exact h.first
    · exact h.second
    · exact h.third
    · exact hvalue
  have hfit : Fitting (s.writing.call m place).site s.target := hk.framed.fitting
  have hbytes : s.target.layout.storageSize ≤ s.bytes.length := h.scene.size
  have hstate (i : ℕ) (hi : i < s.target.layout.storageSize) :
      m.memory (s.state + i) = s.bytes.byteAt i :=
    h.scene.state i (hi.trans_le hbytes)
  have hrun := Call.write_run hk hl hin
    (fun i hi => Scene.writable_of (t := s.fields) (List.mem_singleton.2 rfl) (fields_contains hi))
    hbytes hstate hv
  rw [h.scene.enters hentry] at hrun
  refine hrun.mono fun m' hm' => ⟨returns rfl hfit hm'.left, fun i hi => ?_, fun x hx hx' => ?_⟩
  · rw [Layout.length_write] at hi
    by_cases hsmall : i < s.target.layout.storageSize
    · exact hm'.stored i hsmall
    · -- behind the layout's bytes neither the code nor the layout changes anything
      have hout : s.writing.stack.contains (s.state + i) = false := by
        obtain ⟨-, -, hapart, -⟩ := h.scene.apart_cases
        refine hapart.contains_eq_false (Span.contains_iff.2 ⟨Nat.le_add_right _ _, ?_⟩)
        exact Nat.add_lt_add_left hi _
      have hkeep : m'.memory (s.state + i) = m.memory (s.state + i) :=
        hm'.others _ (.inr (Nat.add_le_add_left (not_lt.1 hsmall) _))
          (outside_saved h.scene rfl hfit hout)
      rw [hkeep, hrest i (not_lt.1 hsmall)]
      exact h.scene.state i hi
  · rw [Span.contains_eq_false_iff] at hx
    exact hm'.others x hx (outside_saved h.scene rfl hfit hx')

/-- The tables are part of the code. -/
theorem slots_inside {address : String × Mark → ℕ} {name : String} {done : Mark} {entry : ℕ → Mark}
    {x : ℕ} (h : (s.scene arity writes).Starts m) (hc : s.target.convention ∈ Convention.all)
    (hload : Loadable s.target s.image s.base address) (hmark : (name, table) ∈ exports)
    (htable : s.table = address (name, table))
    (hpart : s.target.table table done entry <:+: s.target.items)
    (hx : s.slots.contains x = true) : (s.scene arity writes).code.contains x = true := by
  have hinside := h.inside (s.scene arity writes).code (by simp [Scene.spans])
  obtain ⟨place, hplace, a, b, hcode⟩ := h.lies hload
  have hend (y : ℕ) (hy : (s.scene arity writes).guard.executable y = true) :
      y + 1 < (s.scene arity writes).guard.space :=
    lt_of_le_of_lt (Span.contains_iff.1 hy).2 hinside
  have hlists := hcode.table_lists hpart (mode_cases hc) hend
  have hword : ((s.scene arity writes).call m place).site.word = s.target.pointer.size := rfl
  have hstart : ((s.scene arity writes).call m place).site.place table.label = s.table :=
    (hplace (name, table) hmark).trans htable.symm
  obtain ⟨hle, hlt⟩ := Span.contains_iff.1 hx
  simp only [slots, Span.stop] at hle hlt
  have hpos : 0 < s.target.pointer.size := ((s.scene arity writes).call m place).site.word_pos
  -- the slot of the address, and its place in the slot
  have hn : (x - s.table) / s.target.pointer.size < (s.target.labels done entry).length := by
    rw [Target.length_labels, Nat.div_lt_iff_lt_mul hpos, Nat.mul_comm]
    omega
  obtain ⟨bs, -, -, hbytes⟩ := hlists _ _ (List.getElem?_eq_getElem hn)
  have hin := (hbytes _ (Nat.mod_lt (x - s.table) hpos)).1
  rw [hstart, hword, Nat.add_assoc, Nat.div_add_mod, Nat.add_sub_cancel' hle] at hin
  exact hin

section Loaded

variable {p : Port} {address : String × Mark → ℕ}

/-- Loaded code of a port reads the control. -/
theorem Starts.loaded_read (h : s.Starts s.reading m) (hl : s.target.layout = Layout.plan p)
    (hc : s.target.convention ∈ Convention.all) (hsize : s.target.codeSize < 2 ^ 31)
    (hload : Loadable s.target s.image s.base address)
    (hentry : s.entry = address ("read", .read))
    (htable : s.table = address ("read_table", .readTable)) :
    Eventually s.reading.guard (s.EndsReading m) m := by
  obtain ⟨place, hplace, hcode⟩ := h.scene.lies hload
  refine h.read hc hsize (hl ▸ Layout.plan_indexed p) ?_ hcode
    ((hplace ("read", .read) (by decide)).trans hentry.symm)
    ((hplace ("read_table", .readTable) (by decide)).trans htable.symm)
  rw [hl]
  exact fun e he => Layout.within_of_mem (by simp) he

/-- Loaded code of a port writes the control. -/
theorem Starts.loaded_write {v : Int16} (h : s.Starts s.writing m)
    (hvalue : s.writing.Passes m 4 value) (hv : value % 2 ^ 16 = v.toUInt16.toNat)
    (hl : s.target.layout = Layout.plan p) (hc : s.target.convention ∈ Convention.all)
    (hsize : s.target.codeSize < 2 ^ 31) (hload : Loadable s.target s.image s.base address)
    (hentry : s.entry = address ("write", .write))
    (htable : s.table = address ("write_table", .writeTable)) :
    Eventually s.writing.guard (s.EndsWriting v m) m := by
  obtain ⟨place, hplace, hcode⟩ := h.scene.lies hload
  have hbytes : s.target.layout.storageSize ≤ s.bytes.length := h.scene.size
  refine h.write hvalue hv hc hsize (hl ▸ Layout.plan_indexed p) ?_ (fun i hle => ?_) hcode
    ((hplace ("write", .write) (by decide)).trans hentry.symm)
    ((hplace ("write_table", .writeTable) (by decide)).trans htable.symm)
  · rw [hl]
    exact fun e he => Layout.within_of_mem (by simp) he
  · rw [hl] at hbytes hle ⊢
    exact Layout.byteAt_write_of_le hbytes hle _ _ _

end Loaded

end AccessScene

/-- The compiled code of every port reads and writes controls as the port's layout does, wherever it
is linked. -/
theorem access_compiled {p : Port} {convention : Convention} (hc : convention ∈ Convention.all)
    (hsize : Target.codeSize ⟨Layout.plan p, convention⟩ < 2 ^ 31) :
    ∃ program, compile (Layout.plan p) convention = .ok program ∧
      program.size = Target.codeSize ⟨Layout.plan p, convention⟩ ∧
      (∀ base : UInt64, convention.mode = .bits64 ∨ base.toNat + program.size < 2 ^ 32 →
        ∃ image globals, program.link base = .ok (image, globals)) ∧
      ∀ base image globals, program.link base = .ok (image, globals) →
        image.size = program.size ∧ ∃ read readTable write writeTable,
          ("read", read) ∈ globals ∧ ("read_table", readTable) ∈ globals ∧
          ("write", write) ∈ globals ∧ ("write_table", writeTable) ∈ globals ∧
          ∀ (s : AccessScene) (m : Machine), s.target = ⟨Layout.plan p, convention⟩ →
            s.image = image.toList → s.base = base.toNat →
            (s.entry = read.toNat → s.table = readTable.toNat → s.Starts s.reading m →
              Eventually s.reading.guard (s.EndsReading m) m) ∧
            ∀ (n : ℕ) (v : Int16), s.entry = write.toNat → s.table = writeTable.toNat →
              s.Starts s.writing m → s.writing.Passes m 4 n → n % 2 ^ 16 = v.toUInt16.toNat →
              Eventually s.writing.guard (s.EndsWriting v m) m := by
  obtain ⟨program, hcompile, hprogram, hlink, hcode⟩ := @linked_code (Layout.plan p) _ hc hsize
  refine ⟨program, hcompile, hprogram, hlink, fun base image globals hlinked => ?_⟩
  obtain ⟨himage, address, hglobals, hload⟩ := hcode base image globals hlinked
  refine ⟨himage, _, _, _, _, hglobals ("read", .read) (by decide),
    hglobals ("read_table", .readTable) (by decide), hglobals ("write", .write) (by decide),
    hglobals ("write_table", .writeTable) (by decide), fun s m ht hi hb => ?_⟩
  have hl : s.target.layout = Layout.plan p := by rw [ht]
  have hc' : s.target.convention ∈ Convention.all := by rwa [ht]
  have hsize' : s.target.codeSize < 2 ^ 31 := by rwa [ht]
  have hload' : Loadable s.target s.image s.base fun x => (address x).toNat := by rwa [ht, hi, hb]
  exact ⟨fun he hta hs => hs.loaded_read hl hc' hsize' hload' he hta,
    fun n v he hta hs hn hv => hs.loaded_write hn hv hl hc' hsize' hload' he hta⟩

/-- The 64-bit code of two pads, loaded high up, which is asked for the axis of the second pad. No
stack is left, and none is needed. -/
def padAccess (image : Bytes) (entry table : ℕ) : AccessScene where
  target := ⟨Layout.plan Layout.twoPads, .sysv⟩
  image
  base := 0x7f0000000000
  entry
  table
  bytes := [253, 0, 128, 9]
  state := 0x10000
  controller := 1
  control := 0
  low := 0x30000
  top := 0x30000
  back := 0x5000

def padAccessParts (image : Bytes) : List (ℕ × Bytes) :=
  [(0x10000, [253, 0, 128, 9]), (0x30000, Bytes.littleEndian 8 0x5000), (0x7f0000000000, image)]

/-- The machine at the entry; the value has more than sixteen bits. -/
def padAccessMachine (image : Bytes) (entry : ℕ) : Machine where
  registers r := if r = .rsp then 0x30000 else if r = .rsi then 0x10000 else if r = .rdx then 1 else
    if r = .rcx then 0 else if r = .r8 then 0x5fffe else 0
  flags := {}
  memory := written (padAccessParts image)
  next := entry

theorem padAccess_starts {image : Bytes} {entry table arity : ℕ} {writes : List Span}
    (h : image.length < 2 ^ 31) (harity : arity ≤ 6) :
    ((padAccess image entry table).scene arity writes).Starts (padAccessMachine image entry) := by
  have hspace : ((padAccess image entry table).scene arity writes).guard.space = 2 ^ 64 :=
    show Width.span .qword = 2 ^ 64 by decide
  have hparts : (padAccessParts image).Pairwise
      fun p q => Span.Apart ⟨p.1, p.2.length⟩ ⟨q.1, q.2.length⟩ := by
    simp [padAccessParts, Span.Apart, Span.stop]
  have hlays (p : ℕ × Bytes) (hp : p ∈ padAccessParts image) :
      Lays (padAccessMachine image entry).memory p.1 p.2 := lays_written hparts hp
  have harea : Target.area ⟨Layout.plan Layout.twoPads, .sysv⟩ arity = 8 := by
    simp only [Target.area]
    rw [if_pos (show arity ≤ Convention.sysv.arguments.length from harity)]
    rfl
  have hspans : ((padAccess image entry table).scene arity writes).spans =
      [⟨0x7f0000000000, image.length⟩, ⟨0x10000, 4⟩, ⟨0x30000, 0x30000 - 0x30000⟩,
        ⟨0x30000, 8⟩] := by
    rw [← harea]
    rfl
  exact {
    apart := by
      rw [hspans]
      simp only [List.pairwise_cons, List.mem_cons, List.not_mem_nil, or_false, forall_eq_or_imp,
        forall_eq, Span.Apart, Span.stop]
      refine ⟨⟨?_, ?_, ?_⟩, ⟨?_, ?_⟩, ?_, fun _ hx => hx.elim, .nil⟩ <;> omega
    inside := by
      rw [hspace, hspans]
      simp only [List.mem_cons, List.not_mem_nil, or_false, forall_eq_or_imp, forall_eq, Span.stop]
      omega
    room := le_rfl
    size := show (Layout.plan Layout.twoPads).storageSize ≤ 4 by decide
    code := hlays (0x7f0000000000, image) (by simp [padAccessParts])
    state := hlays (0x10000, [253, 0, 128, 9]) (by simp [padAccessParts])
    back := hlays (0x30000, Bytes.littleEndian 8 0x5000) (by simp [padAccessParts])
    back_lt := by
      rw [hspace]
      exact show 0x5000 < 2 ^ 64 by decide
    stackPointer := rfl
    next := rfl }

theorem padAccess_numbers (image : Bytes) (entry table : ℕ) :
    (padAccess image entry table).numbers = (1, 0) :=
  show (Width.toInt .qword 1, Width.toInt .qword 0) = (1, 0) by decide +kernel

/-- The code reads -32768, and writes -2 in its place. -/
theorem padAccess_read_written : Convention.sysv ∈ Convention.all ∧
    Target.codeSize ⟨Layout.plan Layout.twoPads, .sysv⟩ < 2 ^ 31 ∧
    ∃ program image globals read readTable write writeTable,
      compile (Layout.plan Layout.twoPads) .sysv = .ok program ∧
      program.link 0x7f0000000000 = .ok (image, globals) ∧
      ("read", read) ∈ globals ∧ ("read_table", readTable) ∈ globals ∧
      ("write", write) ∈ globals ∧ ("write_table", writeTable) ∈ globals ∧
      Eventually (padAccess image.toList read.toNat readTable.toNat).reading.guard
        (fun m => m.next = 0x5000 ∧ m.registers .rax % 2 ^ 16 = (-32768 : Int16).toUInt16.toNat ∧
          Lays m.memory 0x10000 [253, 0, 128, 9]) (padAccessMachine image.toList read.toNat) ∧
      Eventually (padAccess image.toList write.toNat writeTable.toNat).writing.guard
        (fun m => m.next = 0x5000 ∧ Lays m.memory 0x10000 [253, 254, 255, 9])
        (padAccessMachine image.toList write.toNat) := by
  have hc : Convention.sysv ∈ Convention.all := by decide
  have hcode : Target.codeSize ⟨Layout.plan Layout.twoPads, .sysv⟩ < 2 ^ 31 := by
    rw [@codeSize_eq ⟨Layout.plan Layout.twoPads, .sysv⟩ hc]
    decide +kernel
  obtain ⟨program, hcompile, hsize, hlink, hrun⟩ := @access_compiled Layout.twoPads _ hc hcode
  obtain ⟨image, globals, himage⟩ := hlink 0x7f0000000000 (.inl rfl)
  obtain ⟨hlen, read, readTable, write, writeTable, hread, hreadTable, hwrite,
    hwriteTable, hcall⟩ :=
    hrun _ _ _ himage
  have himagelt : image.toList.length < 2 ^ 31 := by
    rw [Array.length_toList]
    omega
  have hreads := (hcall (padAccess image.toList read.toNat readTable.toNat)
    (padAccessMachine image.toList read.toNat) rfl rfl rfl).1 rfl rfl
      ⟨padAccess_starts himagelt (by decide), rfl, rfl, rfl⟩
  have hwrites := (hcall (padAccess image.toList write.toNat writeTable.toNat)
    (padAccessMachine image.toList write.toNat) rfl rfl rfl).2 0x5fffe (-2) rfl rfl
      ⟨padAccess_starts himagelt (by decide), rfl, rfl, rfl⟩ rfl rfl
  have hvalue : (Layout.plan Layout.twoPads).read [253, 0, 128, 9] 1 0 = -32768 := by decide +kernel
  have hstate : (Layout.plan Layout.twoPads).write [253, 0, 128, 9] 1 0 (-2) =
      [253, 254, 255, 9] := by
    decide +kernel
  refine ⟨hc, hcode, program, image, globals, read, readTable, write, writeTable,
    hcompile, himage, hread,
    hreadTable, hwrite, hwriteTable, hreads.mono fun m hm => ⟨hm.next, ?_, fun i hi => ?_⟩,
    hwrites.mono fun m hm => ⟨hm.next, ?_⟩⟩
  · have hm := hm.value
    rw [padAccess_numbers] at hm
    rw [← hvalue]
    exact hm
  · have hstart := (@padAccess_starts image.toList read.toNat readTable.toNat 4 [] himagelt
      (by decide)).state i hi
    refine (hm.others (0x10000 + i) ?_).trans hstart
    rw [Span.contains_eq_false_iff]
    exact .inl (show 0x10000 + i < 0x30000 by simp at hi; omega)
  · have hm := hm.state
    rw [padAccess_numbers] at hm
    rw [← hstate]
    exact hm

end Program

end PortCodec
