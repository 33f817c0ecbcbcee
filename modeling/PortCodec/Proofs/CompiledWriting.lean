import PortCodec.Proofs.Running.Scene
import PortCodec.Proofs.Running.Serialize

/-! Compiled codecs write lines as their layouts do: whatever the state, the port and the address,
the code returns with the length of the line, and has written the line, the stack and nothing
else. -/

namespace PortCodec

namespace Program

open X86

/-- A line is to be written by compiled code: what is in memory, and where. -/
structure WritingScene where
  target : Target
  /-- The linked code, and the address of the routine. -/
  image : Bytes
  base : ℕ
  entry : ℕ
  /-- The state, which may have more bytes than the layout. -/
  bytes : Bytes
  state : ℕ
  /-- The address for the line. -/
  out : ℕ
  /-- The stack, from the lowest address to the return address. -/
  low : ℕ
  top : ℕ
  back : ℕ

namespace WritingScene

def line (s : WritingScene) : Bytes := s.target.layout.serialize s.bytes

def output (s : WritingScene) : Span := ⟨s.out, s.line.length⟩

/-- Only the state may be read, and only the line be written, besides the stack. -/
def scene (s : WritingScene) : Scene where
  target := s.target
  image := s.image
  base := s.base
  entry := s.entry
  bytes := s.bytes
  state := s.state
  low := s.low
  top := s.top
  back := s.back
  arity := 3
  depth := 64
  others := [s.output]
  reads := [⟨s.state, s.target.layout.storageSize⟩]
  writes := [s.output]

structure Starts (s : WritingScene) (m : Machine) : Prop where
  scene : s.scene.Starts m
  first : s.scene.Passes m 1 s.state
  second : s.scene.Passes m 2 s.out

/-- The machine behind the call: the line is in its place. -/
structure Ends (s : WritingScene) (m m' : Machine) : Prop where
  next : m'.next = s.back
  length : m'.registers .rax = s.line.length
  line : Lays m'.memory s.out s.line
  others : ∀ x, s.output.contains x = false → s.scene.stack.contains x = false →
    m'.memory x = m.memory x
  stackPointer : m'.registers .rsp = m.registers .rsp + s.target.pointer.size
  saved : ∀ r ∈ s.target.convention.saved,
    m'.registers r % s.scene.guard.space = m.registers r % s.scene.guard.space

variable {s : WritingScene} {m : Machine} {place : ℤ → ℕ}

theorem Starts.writes_apart (h : s.Starts m) :
    ∀ w ∈ s.scene.writes, s.scene.code.Apart w ∧ s.scene.frame.Apart w := by
  obtain ⟨-, -, -, -, -, hothers⟩ := h.scene.apart_cases
  intro w hw
  have hw : w ∈ s.scene.others := hw
  exact ⟨(hothers w hw).1, (hothers w hw).2.2.2⟩

/-- Sixty-four bytes of stack are enough. -/
theorem reach_le {k : Call} (hc : k.target.convention ∈ Convention.all)
    (hfit : Fitting k.site k.target) : k.reach ≤ 64 := by
  have h : ∀ c ∈ Convention.all,
      ((Target.bare c).frame.saved.length + 8) * (Target.bare c).pointer.size ≤ 64 := by decide
  have := h _ hc
  unfold Call.reach Call.saved
  rw [hfit.word_eq, ← Nat.add_mul]
  exact this

theorem Starts.writes (h : s.Starts m) (hc : s.target.convention ∈ Convention.all)
    (hsize : s.target.codeSize < 2 ^ 31)
    (hcode : ∃ a b, Lies (s.scene.call m place).site a s.target.items b) :
    (s.scene.call m place).Writes s.state s.out s.bytes s.line.length := by
  have hfit : Fitting (s.scene.call m place).site s.target :=
    h.scene.fitting hc fun w hw => (h.writes_apart w hw).1
  have hreach : (s.scene.call m place).reach ≤ 64 := reach_le hc hfit
  have htop : (s.scene.call m place).top = s.top := h.scene.stackPointer
  have hroom : s.low + 64 ≤ s.top := h.scene.room
  have hstate : s.target.layout.storageSize ≤ s.bytes.length := h.scene.size
  have hfields : (s.scene.call m place).size = s.target.layout.storageSize := rfl
  obtain ⟨-, -, hbuffer, -, -, hothers⟩ := h.scene.apart_cases
  obtain ⟨-, hline, hstack, -⟩ := hothers s.output (List.mem_singleton.2 rfl)
  have hinside := h.scene.inside s.scene.buffer (by simp [Scene.spans])
  have hout := h.scene.inside s.output (by simp [Scene.spans, WritingScene.scene])
  have hbufferspan : s.scene.buffer = ⟨s.state, s.bytes.length⟩ := rfl
  have hstackspan : s.scene.stack = ⟨s.low, s.top - s.low⟩ := rfl
  rw [hbufferspan] at hinside
  simp only [Span.stop] at hinside
  have hin (i : ℕ) (hi : i < s.target.layout.storageSize) :
      Span.contains ⟨s.state, s.target.layout.storageSize⟩ (s.state + i) = true := by
    rw [Span.contains_iff]
    simp only [Span.stop]
    omega
  exact {
    framed := h.scene.framed hc h.writes_apart hcode (Nat.le_add_right _ _) hreach
    size_lt := storageSize_lt hc hsize
    state_le := by
      change s.state + _ ≤ s.scene.guard.space
      omega
    reads_state := fun i hi => Scene.readable_of (List.mem_singleton.2 rfl) (hin i hi)
    keeps_state := by
      intro i hi
      refine Scene.writable_eq_false (t := s.scene.buffer) hbuffer (fun w hw => ?_) ?_
      · obtain rfl := List.mem_singleton.1 hw
        exact hline
      · rw [hbufferspan, Span.contains_iff]
        simp only [Span.stop]
        omega
    shows_state := fun i hi => h.scene.state i (hi.trans_le hstate)
    out_lt := hout
    writes_out := by
      intro i hi
      refine Scene.writable_of (List.mem_singleton.2 rfl) ?_
      rw [Span.contains_iff]
      simp only [output, Span.stop]
      omega
    apart := by
      rw [hstackspan] at hstack
      simp only [Span.Apart, output, Span.stop] at hstack
      omega
    passes_state := h.first.site
    passes_out := h.second.site }

/-- Code that lies at its places writes the line. -/
theorem Starts.run (h : s.Starts m) (hc : s.target.convention ∈ Convention.all)
    (hsize : s.target.codeSize < 2 ^ 31) (hl : s.target.layout.Proper)
    (hempty : .finishEmpty ∈ s.target.layout.program → s.line = [])
    (hcode : ∃ a b, Lies (s.scene.call m place).site a s.target.items b)
    (hentry : place Mark.serialize.label = s.entry) : Eventually s.scene.guard (s.Ends m) m := by
  have hrun := Call.serialize_run hl hempty (h.writes hc hsize hcode)
  have hfit : Fitting (s.scene.call m place).site s.target :=
    h.scene.fitting hc fun w hw => (h.writes_apart w hw).1
  have hreach : (s.scene.call m place).reach ≤ 64 := reach_le hc hfit
  have htop : (s.scene.call m place).top = s.top := h.scene.stackPointer
  have hroom : s.low + 64 ≤ s.top := h.scene.room
  have hword : (s.scene.call m place).site.word = s.target.pointer.size := hfit.word_eq
  rw [h.scene.enters hentry] at hrun
  refine hrun.mono fun m' hm' => ⟨hm'.left.next, hm'.result, hm'.lays, fun x hx hx' => ?_, ?_,
    hm'.left.saved⟩
  · have hstackspan : s.scene.stack = ⟨s.low, s.top - s.low⟩ := rfl
    rw [hstackspan] at hx'
    rw [Span.contains_eq_false_iff] at hx hx'
    simp only [Span.stop] at hx'
    exact hm'.others x hx (by omega)
  · rw [← hword]
    exact hm'.left.stackPointer

/-- Loaded code of a valid port writes the line. -/
theorem Starts.loaded {p : Port} {address : String × Mark → ℕ} (h : s.Starts m) (hv : p.Valid)
    (hl : s.target.layout = Layout.plan p) (hc : s.target.convention ∈ Convention.all)
    (hsize : s.target.codeSize < 2 ^ 31) (hload : Loadable s.target s.image s.base address)
    (hentry : s.entry = address ("serialize", .serialize)) :
    Eventually s.scene.guard (s.Ends m) m := by
  obtain ⟨place, hplace, hcode⟩ := h.scene.lies hload
  refine h.run hc hsize (hl ▸ Layout.plan_proper hv) ?_ hcode
    ((hplace ("serialize", .serialize) (by decide)).trans hentry.symm)
  rw [line, hl]
  exact fun hmem => Layout.serialize_plan_empty hmem _

end WritingScene

/-- The compiled code of every port writes lines as the port's layout does, wherever it is
linked. -/
theorem serialize_compiled {p : Port} {convention : Convention} (hv : p.validate = .ok ())
    (hc : convention ∈ Convention.all)
    (hsize : Target.codeSize ⟨Layout.plan p, convention⟩ < 2 ^ 31) :
    ∃ program, compile (Layout.plan p) convention = .ok program ∧
      program.size = Target.codeSize ⟨Layout.plan p, convention⟩ ∧
      (∀ base : UInt64, convention.mode = .bits64 ∨ base.toNat + program.size < 2 ^ 32 →
        ∃ image globals, program.link base = .ok (image, globals)) ∧
      ∀ base image globals, program.link base = .ok (image, globals) →
        image.size = program.size ∧ ∃ entry, ("serialize", entry) ∈ globals ∧
          ∀ (s : WritingScene) (m : Machine), s.target = ⟨Layout.plan p, convention⟩ →
            s.image = image.toList → s.base = base.toNat → s.entry = entry.toNat → s.Starts m →
            Eventually s.scene.guard (s.Ends m) m := by
  have hvalid := (Port.validate_ok_iff p).1 hv
  obtain ⟨program, hcompile, hprogram, hlink, hcode⟩ := @linked_code (Layout.plan p) _ hc hsize
  refine ⟨program, hcompile, hprogram, hlink, fun base image globals hlinked => ?_⟩
  obtain ⟨himage, address, hglobals, hload⟩ := hcode base image globals hlinked
  refine ⟨himage, _, hglobals ("serialize", .serialize) (by decide), fun s m ht hi hb he hs => ?_⟩
  exact hs.loaded hvalid (by rw [ht]) (by rwa [ht]) (by rwa [ht]) (by rwa [ht, hi, hb]) he

/-- The 64-bit code of two pads, loaded high up, and a state with set bits that no button has and a
byte too many. -/
def padLine (image : Bytes) (entry : ℕ) : WritingScene where
  target := ⟨Layout.plan Layout.twoPads, .sysv⟩
  image
  base := 0x7f0000000000
  entry
  bytes := [253, 0, 128, 9]
  state := 0x10000
  out := 0x20000
  low := 0x30000
  top := 0x30040
  back := 0x5000

def padLineParts (image : Bytes) : List (ℕ × Bytes) :=
  [(0x10000, [253, 0, 128, 9]), (0x30040, Bytes.littleEndian 8 0x5000), (0x7f0000000000, image)]

def padLineMachine (image : Bytes) (entry : ℕ) : Machine where
  registers r := if r = .rsp then 0x30040 else if r = .rsi then 0x10000 else
    if r = .rdx then 0x20000 else 0
  flags := {}
  memory := written (padLineParts image)
  next := entry

theorem padLine_line (image : Bytes) (entry : ℕ) : (padLine image entry).line =
    [124, 65, 46, 124, 32, 45, 51, 50, 55, 54, 56, 67] :=
  show (Layout.plan Layout.twoPads).serialize [253, 0, 128, 9] = _ by decide +kernel

theorem padLine_starts {image : Bytes} {entry : ℕ} (h : image.length < 2 ^ 31) :
    (padLine image entry).Starts (padLineMachine image entry) := by
  have hspace : (padLine image entry).scene.guard.space = 2 ^ 64 :=
    show Width.span .qword = 2 ^ 64 by decide
  have hparts : (padLineParts image).Pairwise
      fun p q => Span.Apart ⟨p.1, p.2.length⟩ ⟨q.1, q.2.length⟩ := by
    simp [padLineParts, Span.Apart, Span.stop]
  have hlays (p : ℕ × Bytes) (hp : p ∈ padLineParts image) :
      Lays (padLineMachine image entry).memory p.1 p.2 := lays_written hparts hp
  have houtput : (padLine image entry).output = ⟨0x20000, 12⟩ := by
    rw [WritingScene.output, padLine_line]
    rfl
  have hspans : (padLine image entry).scene.spans = [⟨0x7f0000000000, image.length⟩, ⟨0x10000, 4⟩,
      ⟨0x30000, 0x30040 - 0x30000⟩, ⟨0x30040, 8⟩, ⟨0x20000, 12⟩] := by
    rw [← houtput]
    rfl
  refine ⟨?_, rfl, rfl⟩
  exact {
    apart := by
      rw [hspans]
      simp only [List.pairwise_cons, List.mem_cons, List.not_mem_nil, or_false, forall_eq_or_imp,
        forall_eq, Span.Apart, Span.stop]
      refine ⟨⟨?_, ?_, ?_, ?_⟩, ⟨?_, ?_, ?_⟩, ⟨?_, ?_⟩, ?_, fun _ hx => hx.elim, .nil⟩ <;> omega
    inside := by
      rw [hspace, hspans]
      simp only [List.mem_cons, List.not_mem_nil, or_false, forall_eq_or_imp, forall_eq, Span.stop]
      omega
    room := show 0x30000 + 64 ≤ 0x30040 by decide
    size := show (Layout.plan Layout.twoPads).storageSize ≤ 4 by decide
    code := hlays (0x7f0000000000, image) (by simp [padLineParts])
    state := hlays (0x10000, [253, 0, 128, 9]) (by simp [padLineParts])
    back := hlays (0x30040, Bytes.littleEndian 8 0x5000) (by simp [padLineParts])
    back_lt := by
      rw [hspace]
      exact show 0x5000 < 2 ^ 64 by decide
    stackPointer := rfl
    next := rfl }

/-- The code writes `"|A.| -32768C"` and leaves the byte behind it alone. -/
theorem padLine_written : Layout.twoPads.validate = .ok () ∧ Convention.sysv ∈ Convention.all ∧
    Target.codeSize ⟨Layout.plan Layout.twoPads, .sysv⟩ < 2 ^ 31 ∧
    ∃ program image globals entry, compile (Layout.plan Layout.twoPads) .sysv = .ok program ∧
      program.link 0x7f0000000000 = .ok (image, globals) ∧ ("serialize", entry) ∈ globals ∧
      (padLine image.toList entry.toNat).Starts (padLineMachine image.toList entry.toNat) ∧
      Eventually (padLine image.toList entry.toNat).scene.guard (fun m => m.next = 0x5000 ∧
        m.registers .rax = 12 ∧ m.registers .rsp = 0x30048 ∧
        Lays m.memory 0x20000 [124, 65, 46, 124, 32, 45, 51, 50, 55, 54, 56, 67] ∧
        m.memory 0x2000c = 0) (padLineMachine image.toList entry.toNat) := by
  have hv : Layout.twoPads.validate = .ok () := rfl
  have hc : Convention.sysv ∈ Convention.all := by decide
  have hcode : Target.codeSize ⟨Layout.plan Layout.twoPads, .sysv⟩ < 2 ^ 31 := by
    rw [@codeSize_eq ⟨Layout.plan Layout.twoPads, .sysv⟩ hc]
    decide +kernel
  obtain ⟨program, hcompile, hsize, hlink, hrun⟩ := serialize_compiled hv hc hcode
  obtain ⟨image, globals, himage⟩ := hlink 0x7f0000000000 (.inl rfl)
  obtain ⟨hlen, entry, hentry, hcall⟩ := hrun _ _ _ himage
  have himagelt : image.toList.length < 2 ^ 31 := by
    rw [Array.length_toList]
    omega
  have hstarts :
      (padLine image.toList entry.toNat).Starts (padLineMachine image.toList entry.toNat) :=
    padLine_starts himagelt
  refine ⟨hv, hc, hcode, program, image, globals, entry, hcompile, himage, hentry, hstarts, ?_⟩
  refine (hcall _ _ rfl rfl rfl rfl hstarts).mono fun m hm => ?_
  have hline := padLine_line image.toList entry.toNat
  refine ⟨hm.next, ?_, hm.stackPointer, ?_, ?_⟩
  · rw [hm.length, hline]
    rfl
  · have hlays : Lays m.memory 0x20000 (padLine image.toList entry.toNat).line := hm.line
    rwa [hline] at hlays
  · rw [hm.others _ ?_ ?_]
    · change splice (splice (splice (fun _ => 0) 0x7f0000000000 image.toList) 0x30040
        (Bytes.littleEndian 8 0x5000)) 0x10000 [253, 0, 128, 9] 0x2000c = 0
      rw [splice_outside (by simp), splice_outside (by simp), splice_outside (by simp)]
    · rw [WritingScene.output, hline]
      rfl
    · rw [Span.contains_eq_false_iff]
      exact .inl (show 0x2000c < 0x30000 by decide)

end Program

end PortCodec
