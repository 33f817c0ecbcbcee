import PortCodec.Proofs.Running.Deserialize

/-! Calls of linked code. A scene says what is in memory, and where, when a routine is called, and
what its code may read and write; code that is linked and loaded there lies at its places. -/

namespace PortCodec.Program

open X86

/-- Code lies at its places wherever it is loaded, and its exported names have the addresses of
their marks. -/
def Loadable (t : Target) (image : Bytes) (base : ℕ) (address : String × Mark → ℕ) : Prop :=
  ∀ (g : Guard) (memory : ℕ → UInt8), g.mode = t.mode → g.Holds memory base image →
    base + image.length < g.space →
    ∃ place : ℤ → ℕ, (∀ x ∈ exports, place x.2.label = address x) ∧
      ∃ a b, Lies ⟨g, memory, place⟩ a t.items b

structure Scene where
  target : Target
  /-- The linked code, and the address of the routine. -/
  image : Bytes
  base : ℕ
  entry : ℕ
  /-- The state, which may have more bytes than the layout. -/
  bytes : Bytes
  state : ℕ
  /-- The stack, from the lowest address to the return address. -/
  low : ℕ
  top : ℕ
  back : ℕ
  /-- The number of arguments, and the bytes of stack that the routine can use. -/
  arity : ℕ
  depth : ℕ
  /-- What is in memory besides code, state and stack. -/
  others : List Span
  /-- What the code may read and write, besides the stack. -/
  reads : List Span
  writes : List Span
  /-- Where it may load the address of a jump from. -/
  jumps : ℕ → Bool := fun _ => true

namespace Scene

def code (s : Scene) : Span := ⟨s.base, s.image.length⟩

def buffer (s : Scene) : Span := ⟨s.state, s.bytes.length⟩

def fields (s : Scene) : Span := ⟨s.state, s.target.layout.storageSize⟩

def stack (s : Scene) : Span := ⟨s.low, s.top - s.low⟩

/-- The return address, and the arguments that are on the stack. -/
def frame (s : Scene) : Span := ⟨s.top, s.target.area s.arity⟩

def spans (s : Scene) : List Span := s.code :: s.buffer :: s.stack :: s.frame :: s.others

def guard (s : Scene) : Guard where
  mode := s.target.mode
  readable x := (s.stack :: s.frame :: s.reads).any (·.contains x)
  writable x := (s.stack :: s.writes).any (·.contains x)
  executable x := s.code.contains x
  jumps := s.jumps

structure Starts (s : Scene) (m : Machine) : Prop where
  apart : s.spans.Pairwise Span.Apart
  inside : ∀ x ∈ s.spans, x.stop < s.guard.space
  room : s.low + s.depth ≤ s.top
  size : s.target.layout.storageSize ≤ s.bytes.length
  code : Lays m.memory s.base s.image
  state : Lays m.memory s.state s.bytes
  back : Lays m.memory s.top (Bytes.littleEndian s.target.pointer.size s.back)
  back_lt : s.back < s.guard.space
  stackPointer : m.registers .rsp = s.top
  next : m.next = s.entry

def Passes (s : Scene) (m : Machine) (i x : ℕ) : Prop :=
  m.fetch s.guard (fun _ => 0) s.target.pointer (s.target.convention.argument i 0) = some x

def call (s : Scene) (m : Machine) (place : ℤ → ℕ) : Call where
  site := ⟨s.guard, m.memory, place⟩
  target := s.target
  registers := m.registers
  flags := m.flags
  back := s.back

variable {s : Scene} {m : Machine} {place : ℤ → ℕ} {x i : ℕ}

theorem readable_of {t : Span} (ht : t ∈ s.reads) (hx : t.contains x = true) :
    s.guard.readable x = true := by
  simp only [guard, List.any_eq_true]
  exact ⟨t, by simp [ht], hx⟩

theorem writable_of {t : Span} (ht : t ∈ s.writes) (hx : t.contains x = true) :
    s.guard.writable x = true := by
  simp only [guard, List.any_eq_true]
  exact ⟨t, by simp [ht], hx⟩

theorem owns_stack (hx : s.stack.contains x = true) :
    s.guard.readable x = true ∧ s.guard.writable x = true := by
  simp [guard, hx]

theorem readable_frame (hx : s.frame.contains x = true) : s.guard.readable x = true := by
  simp [guard, hx]

/-- What is apart from all that may be written is not written. -/
theorem writable_eq_false {t : Span} (hstack : t.Apart s.stack) (hw : ∀ w ∈ s.writes, t.Apart w)
    (hx : t.contains x = true) : s.guard.writable x = false := by
  simp only [guard, List.any_eq_false, List.mem_cons, forall_eq_or_imp, Bool.not_eq_true]
  exact ⟨hstack.contains_eq_false hx, fun w hmem => (hw w hmem).contains_eq_false hx⟩

/-- The parts that every scene has are apart. -/
theorem Starts.apart_cases (h : s.Starts m) : s.code.Apart s.buffer ∧ s.code.Apart s.stack ∧
    s.buffer.Apart s.stack ∧ s.frame.Apart s.buffer ∧ s.frame.Apart s.stack ∧
    ∀ t ∈ s.others, s.code.Apart t ∧ s.buffer.Apart t ∧ s.stack.Apart t ∧ s.frame.Apart t := by
  have := h.apart
  simp only [spans, List.pairwise_cons, List.mem_cons, forall_eq_or_imp] at this
  obtain ⟨⟨h1, h2, -, h3⟩, ⟨h4, h5, h6⟩, ⟨h7, h8⟩, h9, -⟩ := this
  exact ⟨h1, h2, h4, h5.symm, h7.symm, fun t ht => ⟨h3 t ht, h6 t ht, h8 t ht, h9 t ht⟩⟩

/-- The state that the layout uses is part of the state. -/
theorem Starts.apart_fields (h : s.Starts m) {t : Span} (ht : t.Apart s.buffer) :
    t.Apart s.fields := by
  have hsize := h.size
  simp only [Span.Apart, buffer, fields, Span.stop] at ht ⊢
  omega

theorem Starts.fitting (h : s.Starts m) (hc : s.target.convention ∈ Convention.all)
    (hw : ∀ w ∈ s.writes, s.code.Apart w) :
    Fitting (s.call m place).site (s.call m place).target where
  sound := ⟨mode_cases hc, fun _ hx => writable_eq_false h.apart_cases.2.1 hw hx⟩
  mode := rfl

/-- The code can be run. -/
theorem Starts.holds (h : s.Starts m) : s.guard.Holds m.memory s.base s.image := by
  have hinside := h.inside s.code (by simp [spans])
  simp only [Scene.code, Span.stop] at hinside
  intro i hi
  rw [Nat.mod_eq_of_lt (by omega)]
  refine ⟨Span.contains_iff.2 ?_, ?_⟩
  · simp only [Scene.code, Span.stop]
    omega
  · rw [h.code i hi]
    simp [Bytes.byteAt, List.getD_eq_getElem?_getD, hi]

theorem Starts.framed {depth : ℕ} (h : s.Starts m) (hc : s.target.convention ∈ Convention.all)
    (hw : ∀ w ∈ s.writes, s.code.Apart w ∧ s.frame.Apart w)
    (hcode : ∃ a b, Lies (s.call m place).site a s.target.items b)
    (hsaved : (s.call m place).saved ≤ depth) (hdepth : depth ≤ s.depth) :
    (s.call m place).Framed s.arity depth := by
  have hfit := @Starts.fitting s m place h hc fun w hmem => (hw w hmem).1
  have hword : (s.call m place).site.word = s.target.pointer.size := hfit.word_eq
  have htop : (s.call m place).top = s.top := h.stackPointer
  have hroom := h.room
  have hinside := h.inside s.frame (by simp [spans])
  obtain ⟨-, -, -, -, hstack, -⟩ := h.apart_cases
  exact {
    fitting := hfit
    convention := hc
    code := hcode
    saved_le := hsaved
    low := by omega
    high := by rwa [htop]
    owns_stack := by
      intro i hi
      refine owns_stack ?_
      rw [Span.contains_iff]
      simp only [stack, Span.stop]
      omega
    back_lt := h.back_lt
    stores_back := by
      intro i hi
      rw [htop, hword]
      exact h.back i (by rwa [Bytes.littleEndian_length, ← hword])
    keeps_back := by
      intro i hi
      have harea := Call.pointer_le_area s.target s.arity
      have hin : s.frame.contains ((s.call m place).top + i) = true := by
        rw [Span.contains_iff]
        simp only [frame, Span.stop]
        omega
      exact ⟨readable_frame hin, writable_eq_false hstack (fun w hmem => (hw w hmem).2) hin⟩ }

theorem Passes.site (h : s.Passes m i x) {next : ℕ} : Program.Passes (s.call m place).site
    s.target.convention ⟨m.registers, m.flags, m.memory, next⟩ i x := by
  unfold Program.Passes
  rw [fetch_argument _ _ fun _ => 0]
  have hmem : ∀ o : Operand, Machine.fetch s.guard (fun _ => 0)
    ⟨m.registers, m.flags, m.memory, next⟩ s.target.pointer o =
      m.fetch s.guard (fun _ => 0) s.target.pointer o := by
    intro o
    cases o <;> rfl
  exact (hmem _).trans h

/-- The routine is entered at its mark. -/
theorem Starts.enters (h : s.Starts m) {mark : Mark} (hentry : place mark.label = s.entry) :
    (s.call m place).enters mark = m := by
  change Machine.mk m.registers m.flags m.memory (place mark.label) = m
  rw [hentry, ← h.next]

/-- Code that is loaded where a scene has it lies at its places. -/
theorem Starts.lies (h : s.Starts m) {address : String × Mark → ℕ}
    (hload : Loadable s.target s.image s.base address) :
    ∃ place : ℤ → ℕ, (∀ x ∈ exports, place x.2.label = address x) ∧
      ∃ a b, Lies (s.call m place).site a s.target.items b :=
  hload s.guard m.memory rfl h.holds (h.inside s.code (by simp [spans]))

end Scene

section Linked

variable {t : Target} {a : Assembler} {base : UInt64} {image : Array UInt8}
  {globals : List (String × UInt64)}

/-- Linked code can be loaded, and its exported names have the addresses of their marks. -/
theorem Compiled.loadable (h : Compiled t a) (hc : t.convention ∈ Convention.all)
    (hlink : a.link base = .ok (image, globals)) : ∃ address : String × Mark → UInt64,
      globals = exports.map (fun x => (x.1, address x)) ∧
      Loadable t image.toList base.toNat fun x => (address x).toNat := by
  refine ⟨fun x => base + UInt64.ofNat (codeOffset a x.2.label), h.globals_eq hc hlink,
    fun g memory hmode hholds hinside => ⟨placeOf a base g.space, fun x hx => ?_, _, _,
      h.lies hc hlink hmode hholds⟩⟩
  obtain ⟨hoffset, hplace⟩ := h.entry hc hlink hx
  rw [Array.length_toList] at hinside
  change _ = (base + UInt64.ofNat (codeOffset a x.2.label)).toNat
  rw [hplace, UInt64.toNat_add, UInt64.toNat_ofNat']
  rcases g.space_cases with hspace | hspace <;> rw [hspace] at hinside ⊢ <;> omega

end Linked

/-- Compiled code can be linked and loaded. -/
theorem linked_code {l : Layout} {convention : Convention} (hc : convention ∈ Convention.all)
    (hsize : Target.codeSize ⟨l, convention⟩ < 2 ^ 31) :
    ∃ program, compile l convention = .ok program ∧
      program.size = Target.codeSize ⟨l, convention⟩ ∧
      (∀ base : UInt64, convention.mode = .bits64 ∨ base.toNat + program.size < 2 ^ 32 →
        ∃ image globals, program.link base = .ok (image, globals)) ∧
      ∀ base image globals, program.link base = .ok (image, globals) →
        image.size = program.size ∧ ∃ address : String × Mark → UInt64,
          (∀ x ∈ exports, (x.1, address x) ∈ globals) ∧
          Loadable ⟨l, convention⟩ image.toList base.toNat fun x => (address x).toNat := by
  obtain ⟨program, hcompile, -, hprogram, hcomp⟩ := compile_eq hc hsize
  refine ⟨program, hcompile, hprogram, fun base hbase => ?_, fun base image globals hlink => ?_⟩
  · rw [hprogram] at hbase
    exact hcomp.link hc hsize hbase
  · obtain ⟨address, rfl, hload⟩ := hcomp.loadable hc hlink
    exact ⟨(hcomp.image_size hc hlink).trans hprogram.symm, address,
      fun x hx => List.mem_map_of_mem hx, hload⟩

end PortCodec.Program
