import PortCodec.Proofs.Running.Scene

/-! Compiled codecs read lines as the reader of lines does: whatever the line, the port and the
address, the code returns with the same count and the same state, reads no further than the byte
that ends the line, and writes nothing but the state and the stack. -/

namespace PortCodec

namespace Line

theorem skipField_append_zero (text : Bytes) : skipField (text ++ [0]) = skipField text ++ [0] := by
  induction text with
  | nil => rfl
  | cons b rest ih =>
    simp only [List.cons_append, skipField]
    split_ifs
    · rfl
    · rfl
    · exact ih

theorem readStep_append_zero (st text : Bytes) (s : Step) :
    readStep st (text ++ [0]) s = ((readStep st text s).1, (readStep st text s).2 ++ [0]) := by
  cases s with
  | button o mask char =>
    cases text with
    | nil => rfl
    | cons b rest =>
      simp only [List.cons_append, readStep]
      split_ifs <;> rfl
  | axis o =>
    have hended : Ended [0] := by simp [Ended, isFieldEnd]
    simp only [readStep, readAxis_eq, axisOf_append text hended]
  | leadingPipe | pipe => simp only [readStep, skipField_append_zero]
  | finish | finishEmpty => rfl

theorem readSteps_append_zero (st text : Bytes) (steps : List Step) :
    readSteps st (text ++ [0]) steps =
      ((readSteps st text steps).1, (readSteps st text steps).2 ++ [0]) := by
  induction steps generalizing st text with
  | nil => rfl
  | cons s steps ih =>
    simp only [readSteps, readStep_append_zero]
    exact ih _ _

theorem any_terminated (text : Bytes) : (terminated text).any isLineEnd = true := by
  unfold terminated
  split_ifs with h
  · exact h
  · simp [isLineEnd]

end Line

/-- The zero behind a line is not read as part of it. -/
theorem Layout.deserialize_terminated (l : Layout) (st text : Bytes) :
    l.deserialize st (Line.terminated text) = l.deserialize st text := by
  unfold Line.terminated
  split_ifs
  · rfl
  · simp only [deserialize, Line.readSteps_append_zero, List.length_append, List.length_singleton,
      Nat.cast_add, Nat.cast_one, add_sub_add_right_eq_sub]

namespace Program

open X86

/-- A line is to be read by compiled code: what is in memory, and where. -/
structure ReadingScene where
  target : Target
  /-- The linked code, and the address of the routine. -/
  image : Bytes
  base : ℕ
  entry : ℕ
  /-- The state, which may have more bytes than the layout. -/
  bytes : Bytes
  state : ℕ
  /-- The line, which gets an end if it has none. -/
  text : Bytes
  line : ℕ
  /-- The stack, from the lowest address to the return address. -/
  low : ℕ
  top : ℕ
  back : ℕ

namespace ReadingScene

def input (s : ReadingScene) : Bytes := Line.terminated s.text

def fields (s : ReadingScene) : Span := ⟨s.state, s.target.layout.storageSize⟩

def source (s : ReadingScene) : Span := ⟨s.line, s.input.length⟩

def firstLine (s : ReadingScene) : Span := ⟨s.line, s.input.findIdx isLineEnd + 1⟩

/-- Only the state may be written, besides the stack, and nothing behind the first byte that ends
the line may be read. -/
def scene (s : ReadingScene) : Scene where
  target := s.target
  image := s.image
  base := s.base
  entry := s.entry
  bytes := s.bytes
  state := s.state
  low := s.low
  top := s.top
  back := s.back
  arity := 3
  depth := 16
  others := [s.source]
  reads := [s.fields, s.firstLine]
  writes := [s.fields]

structure Starts (s : ReadingScene) (m : Machine) : Prop where
  scene : s.scene.Starts m
  line : Lays m.memory s.line s.input
  first : s.scene.Passes m 1 s.state
  second : s.scene.Passes m 2 s.line

/-- The machine behind the call: it has the count and the state that reading the line gives. -/
structure Ends (s : ReadingScene) (m m' : Machine) : Prop where
  next : m'.next = s.back
  count : m'.registers .rax =
    s.target.pointer.ofInt (s.target.layout.deserialize s.bytes s.text).1
  state : ∀ i < s.target.layout.storageSize,
    m'.memory (s.state + i) = (s.target.layout.deserialize s.bytes s.text).2.byteAt i
  others : ∀ x, s.fields.contains x = false → s.scene.stack.contains x = false →
    m'.memory x = m.memory x
  stackPointer : m'.registers .rsp = m.registers .rsp + s.target.pointer.size
  saved : ∀ r ∈ s.target.convention.saved,
    m'.registers r % s.scene.guard.space = m.registers r % s.scene.guard.space

variable {s : ReadingScene} {m : Machine} {place : ℤ → ℕ}

/-- The state is apart from the code and from the frame. -/
theorem Starts.writes_apart (h : s.Starts m) :
    ∀ w ∈ s.scene.writes, s.scene.code.Apart w ∧ s.scene.frame.Apart w := by
  obtain ⟨hcode, -, -, hframe, -⟩ := h.scene.apart_cases
  intro w hw
  obtain rfl := List.mem_singleton.1 hw
  exact ⟨h.scene.apart_fields hcode, h.scene.apart_fields hframe⟩

theorem Starts.fitting (h : s.Starts m) (hc : s.target.convention ∈ Convention.all) :
    Fitting (s.scene.call m place).site s.target :=
  h.scene.fitting hc fun w hw => (h.writes_apart w hw).1

/-- Sixteen bytes of stack are enough. -/
theorem depth_le {k : Call} (hc : k.target.convention ∈ Convention.all)
    (hfit : Fitting k.site k.target) : k.depth ≤ 16 := by
  have h : ∀ c ∈ Convention.all,
      ((Target.bare c).frame.saved.length + 1) * (Target.bare c).pointer.size ≤ 16 := by decide
  have := h _ hc
  unfold Call.depth Call.saved
  rw [hfit.word_eq, ← Nat.add_one_mul]
  exact this

theorem Starts.spells (h : s.Starts m) : (s.scene.call m place).site.Spells s.line s.input := by
  have hend : s.input.findIdx isLineEnd < s.input.length :=
    List.findIdx_lt_length.2 (List.any_eq_true.1 (Line.any_terminated s.text))
  have hsource := h.scene.inside s.source (by simp [Scene.spans, ReadingScene.scene])
  obtain ⟨-, -, -, -, -, hothers⟩ := h.scene.apart_cases
  obtain ⟨-, hline, hstack, -⟩ := hothers s.source (List.mem_singleton.2 rfl)
  simp only [source, Span.stop] at hsource
  refine Site.spells_of_lays (Line.any_terminated s.text) h.line fun i hi => ⟨?_, ?_, ?_⟩
  · change s.line + i < s.scene.guard.space
    omega
  · refine Scene.readable_of (t := s.firstLine) (by simp [ReadingScene.scene]) ?_
    rw [Span.contains_iff]
    simp only [firstLine, Span.stop]
    omega
  · refine Scene.writable_eq_false (t := s.source) hstack.symm (fun w hw => ?_) ?_
    · obtain rfl := List.mem_singleton.1 hw
      exact h.scene.apart_fields hline.symm
    · rw [Span.contains_iff]
      simp only [source, Span.stop]
      omega

theorem Starts.reads (h : s.Starts m) (hc : s.target.convention ∈ Convention.all)
    (hsize : s.target.codeSize < 2 ^ 31)
    (hcode : ∃ a b, Lies (s.scene.call m place).site a s.target.items b) :
    (s.scene.call m place).Reads s.state s.line s.input := by
  have hdepth : (s.scene.call m place).depth ≤ 16 := depth_le hc (h.fitting hc)
  have htop : (s.scene.call m place).top = s.top := h.scene.stackPointer
  have hroom : s.low + 16 ≤ s.top := h.scene.room
  have hstate : s.target.layout.storageSize ≤ s.bytes.length := h.scene.size
  have hfields : (s.scene.call m place).size = s.target.layout.storageSize := rfl
  have hinside := h.scene.inside s.scene.buffer (by simp [Scene.spans])
  obtain ⟨-, -, hapart, -⟩ := h.scene.apart_cases
  have hbufferspan : s.scene.buffer = ⟨s.state, s.bytes.length⟩ := rfl
  have hstackspan : s.scene.stack = ⟨s.low, s.top - s.low⟩ := rfl
  rw [hbufferspan] at hinside
  rw [hbufferspan, hstackspan] at hapart
  simp only [Span.stop] at hinside
  simp only [Span.Apart, Span.stop] at hapart
  exact {
    framed := h.scene.framed hc h.writes_apart hcode (Nat.le_add_right _ _) hdepth
    size_lt := storageSize_lt hc hsize
    state_le := by
      change s.state + _ ≤ s.scene.guard.space
      omega
    owns_state := by
      intro i hi
      have hin : s.fields.contains (s.state + i) = true := by
        rw [Span.contains_iff]
        simp only [fields, Span.stop]
        omega
      exact ⟨Scene.readable_of (by simp [ReadingScene.scene]) hin,
        Scene.writable_of (List.mem_singleton.2 rfl) hin⟩
    apart := by omega
    passes_state := h.first.site
    passes_line := h.second.site
    spells := h.spells }

/-- Code that lies at its places reads the line. -/
theorem Starts.run (h : s.Starts m) (hc : s.target.convention ∈ Convention.all)
    (hsize : s.target.codeSize < 2 ^ 31) (hl : s.target.layout.Proper)
    (hcode : ∃ a b, Lies (s.scene.call m place).site a s.target.items b)
    (hentry : place Mark.deserialize.label = s.entry) : Eventually s.scene.guard (s.Ends m) m := by
  have hfit : Fitting (s.scene.call m place).site s.target := h.fitting hc
  have hdepth : (s.scene.call m place).depth ≤ 16 := depth_le hc hfit
  have htop : (s.scene.call m place).top = s.top := h.scene.stackPointer
  have hroom : s.low + 16 ≤ s.top := h.scene.room
  have hword : (s.scene.call m place).site.word = s.target.pointer.size := hfit.word_eq
  have hrun := Call.deserialize_run (h.reads hc hsize hcode) hl h.scene.size fun i hi =>
    h.scene.state i (hi.trans_le h.scene.size)
  rw [h.scene.enters hentry] at hrun
  refine hrun.mono fun m' hm' => ⟨hm'.next, ?_, fun i hi => ?_, fun x hx hx' => ?_, ?_, hm'.saved⟩
  · rw [← Layout.deserialize_terminated]
    exact hm'.result
  · rw [← Layout.deserialize_terminated]
    exact hm'.stored i hi
  · have hstackspan : s.scene.stack = ⟨s.low, s.top - s.low⟩ := rfl
    rw [hstackspan] at hx'
    rw [Span.contains_eq_false_iff] at hx hx'
    simp only [Span.stop] at hx'
    exact hm'.others x hx (by omega)
  · rw [← hword]
    exact hm'.stackPointer

/-- Loaded code of a valid port reads the line. -/
theorem Starts.loaded {p : Port} {address : String × Mark → ℕ} (h : s.Starts m) (hv : p.Valid)
    (hl : s.target.layout = Layout.plan p) (hc : s.target.convention ∈ Convention.all)
    (hsize : s.target.codeSize < 2 ^ 31) (hload : Loadable s.target s.image s.base address)
    (hentry : s.entry = address ("deserialize", .deserialize)) :
    Eventually s.scene.guard (s.Ends m) m := by
  obtain ⟨place, hplace, hcode⟩ := h.scene.lies hload
  exact h.run hc hsize (hl ▸ Layout.plan_proper hv) hcode
    ((hplace ("deserialize", .deserialize) (by decide)).trans hentry.symm)

end ReadingScene

/-- The compiled code of every port reads lines as the port's layout does, wherever it is linked. -/
theorem deserialize_compiled {p : Port} {convention : Convention} (hv : p.validate = .ok ())
    (hc : convention ∈ Convention.all)
    (hsize : Target.codeSize ⟨Layout.plan p, convention⟩ < 2 ^ 31) :
    ∃ program, compile (Layout.plan p) convention = .ok program ∧
      program.size = Target.codeSize ⟨Layout.plan p, convention⟩ ∧
      (∀ base : UInt64, convention.mode = .bits64 ∨ base.toNat + program.size < 2 ^ 32 →
        ∃ image globals, program.link base = .ok (image, globals)) ∧
      ∀ base image globals, program.link base = .ok (image, globals) →
        image.size = program.size ∧ ∃ entry, ("deserialize", entry) ∈ globals ∧
          ∀ (s : ReadingScene) (m : Machine), s.target = ⟨Layout.plan p, convention⟩ →
            s.image = image.toList → s.base = base.toNat → s.entry = entry.toNat → s.Starts m →
            Eventually s.scene.guard (s.Ends m) m := by
  have hvalid := (Port.validate_ok_iff p).1 hv
  obtain ⟨program, hcompile, hprogram, hlink, hcode⟩ := @linked_code (Layout.plan p) _ hc hsize
  refine ⟨program, hcompile, hprogram, hlink, fun base image globals hlinked => ?_⟩
  obtain ⟨himage, address, hglobals, hload⟩ := hcode base image globals hlinked
  refine ⟨himage, _, hglobals ("deserialize", .deserialize) (by decide),
    fun s m ht hi hb he hs => ?_⟩
  exact hs.loaded hvalid (by rw [ht]) (by rwa [ht]) (by rwa [ht]) (by rwa [ht, hi, hb]) he

/-- The 32-bit code of two pads, far from a state with a byte too many and from the line
`"|A.| -70000C"`, which has no end. -/
def padScene (image : Bytes) (entry : ℕ) : ReadingScene where
  target := ⟨Layout.plan Layout.twoPads, .cdecl⟩
  image
  base := 0x10000
  entry
  bytes := [255, 255, 255, 9]
  state := 0x90000000
  text := [124, 65, 46, 124, 32, 45, 55, 48, 48, 48, 48, 67]
  line := 0xa0000000
  low := 0xb0000000
  top := 0xb0000010
  back := 0x5000

def padParts (image : Bytes) : List (ℕ × Bytes) :=
  [(0x10000, image), (0x90000000, [255, 255, 255, 9]),
   (0xa0000000, [124, 65, 46, 124, 32, 45, 55, 48, 48, 48, 48, 67, 0]),
   (0xb0000010, Bytes.littleEndian 4 0x5000), (0xb0000018, Bytes.littleEndian 4 0x90000000),
   (0xb000001c, Bytes.littleEndian 4 0xa0000000)]

def padMachine (image : Bytes) (entry : ℕ) : Machine where
  registers r := if r = .rsp then 0xb0000010 else 0
  flags := {}
  memory := written (padParts image)
  next := entry

theorem padScene_starts {image : Bytes} {entry : ℕ} (h : image.length < 2 ^ 31) :
    (padScene image entry).Starts (padMachine image entry) := by
  have hspace : (padScene image entry).scene.guard.space = 2 ^ 32 :=
    show Width.span .dword = 2 ^ 32 by decide
  have hparts : (padParts image).Pairwise
      fun p q => Span.Apart ⟨p.1, p.2.length⟩ ⟨q.1, q.2.length⟩ := by
    simp [padParts, Span.Apart, Span.stop]
    omega
  have hlays (p : ℕ × Bytes) (hp : p ∈ padParts image) :
      Lays (padMachine image entry).memory p.1 p.2 := lays_written hparts hp
  have hargument (i x : ℕ) (hi : i = 1 ∨ i = 2)
      (hp : (0xb0000010 + 4 * (i + 1), Bytes.littleEndian 4 x) ∈ padParts image)
      (hx : x < 256 ^ 4) :
      (padMachine image entry).fetch (padScene image entry).scene.guard (fun _ => 0) .dword
        (Convention.cdecl.argument i 0) = some x := by
    have harg : Convention.cdecl.argument i 0 = .memory (.pointer .rsp (4 * (i + 1) : ℕ)) := by
      rcases hi with rfl | rfl <;> decide +kernel
    have haddress : (padMachine image entry).address (padScene image entry).scene.guard (fun _ => 0)
        (.pointer .rsp (4 * (i + 1) : ℕ)) = 0xb0000010 + 4 * (i + 1) := by
      refine address_pointer ?_
      rw [hspace]
      change 0xb0000010 + 4 * (i + 1) < 2 ^ 32
      omega
    have hlen : (Bytes.littleEndian 4 x).length = 4 := Bytes.littleEndian_length 4 x
    have hvalue : (Bytes.littleEndian 4 x).toNatLE = x := by
      rw [Bytes.toNatLE_littleEndian, Nat.mod_eq_of_lt hx]
    rw [harg, Machine.fetch, haddress, ← hvalue]
    refine load_eq hlen (by rw [hspace]; omega) (fun j hj => ?_) (hlays _ hp)
    refine Scene.readable_frame (Span.contains_iff.2 ?_)
    have harea : (padScene image entry).scene.frame = ⟨0xb0000010, 16⟩ := rfl
    rw [harea]
    simp only [Span.stop]
    omega
  have hspans : (padScene image entry).scene.spans = [⟨0x10000, image.length⟩, ⟨0x90000000, 4⟩,
    ⟨0xb0000000, 0xb0000010 - 0xb0000000⟩, ⟨0xb0000010, 16⟩, ⟨0xa0000000, 13⟩] := rfl
  have hline : (0xa0000000, [124, 65, 46, 124, 32, 45, 55, 48, 48, 48, 48, 67, 0]) ∈
      padParts image := by simp [padParts]
  refine ⟨?_, hlays _ hline, hargument 1 0x90000000 (.inl rfl) (by simp [padParts]) (by decide),
    hargument 2 0xa0000000 (.inr rfl) (by simp [padParts]) (by decide)⟩
  exact {
    apart := by
      rw [hspans]
      simp only [List.pairwise_cons, List.mem_cons, List.not_mem_nil, or_false, forall_eq_or_imp,
        forall_eq, Span.Apart, Span.stop]
      refine ⟨⟨?_, ?_, ?_, ?_⟩, ⟨?_, ?_, ?_⟩, ⟨?_, ?_⟩, ?_, fun _ hx => hx.elim, .nil⟩ <;> omega
    inside := by
      rw [hspace, hspans]
      simp only [List.mem_cons, List.not_mem_nil, or_false, forall_eq_or_imp, forall_eq, Span.stop]
      omega
    room := show 0xb0000000 + 16 ≤ 0xb0000010 by decide
    size := show (Layout.plan Layout.twoPads).storageSize ≤ 4 by decide
    code := hlays (0x10000, image) (by simp [padParts])
    state := hlays (0x90000000, [255, 255, 255, 9]) (by simp [padParts])
    back := hlays (0xb0000010, Bytes.littleEndian 4 0x5000) (by simp [padParts])
    back_lt := by
      rw [hspace]
      exact show 0x5000 < 2 ^ 32 by decide
    stackPointer := rfl
    next := rfl }

/-- The code uses up the whole line and leaves the byte behind the state alone. -/
theorem padScene_read : Layout.twoPads.validate = .ok () ∧ Convention.cdecl ∈ Convention.all ∧
    Target.codeSize ⟨Layout.plan Layout.twoPads, .cdecl⟩ < 2 ^ 31 ∧
    ∃ program image globals entry, compile (Layout.plan Layout.twoPads) .cdecl = .ok program ∧
      program.link 0x10000 = .ok (image, globals) ∧ ("deserialize", entry) ∈ globals ∧
      (padScene image.toList entry.toNat).Starts (padMachine image.toList entry.toNat) ∧
      Eventually (padScene image.toList entry.toNat).scene.guard (fun m => m.next = 0x5000 ∧
        m.registers .rax = 12 ∧ m.memory 0x90000000 = 5 ∧ m.memory 0x90000001 = 144 ∧
        m.memory 0x90000002 = 238 ∧ m.memory 0x90000003 = 9)
          (padMachine image.toList entry.toNat) := by
  have hv : Layout.twoPads.validate = .ok () := rfl
  have hc : Convention.cdecl ∈ Convention.all := by decide
  have hcode : Target.codeSize ⟨Layout.plan Layout.twoPads, .cdecl⟩ < 2 ^ 30 := by
    rw [@codeSize_eq ⟨Layout.plan Layout.twoPads, .cdecl⟩ hc]
    decide +kernel
  have hread : (Layout.plan Layout.twoPads).deserialize [255, 255, 255, 9]
      [124, 65, 46, 124, 32, 45, 55, 48, 48, 48, 48, 67] = (12, [5, 144, 238, 9]) := by
        decide +kernel
  obtain ⟨program, hcompile, hsize, hlink, hrun⟩ := deserialize_compiled hv hc (by omega)
  have hbase : (0x10000 : UInt64).toNat = 65536 := rfl
  obtain ⟨image, globals, himage⟩ := hlink 0x10000 (.inr (by omega))
  obtain ⟨hlen, entry, hentry, hcall⟩ := hrun _ _ _ himage
  have hstarts : (padScene image.toList entry.toNat).Starts (padMachine image.toList entry.toNat) :=
    padScene_starts (by rw [Array.length_toList]; omega)
  refine ⟨hv, hc, by omega, program, image, globals, entry, hcompile, himage, hentry, hstarts, ?_⟩
  refine (hcall _ _ rfl rfl rfl rfl hstarts).mono fun m hm => ?_
  have hfields : (padScene image.toList entry.toNat).fields = ⟨0x90000000, 3⟩ := rfl
  have hstate (i : ℕ) (hi : i < 3) : m.memory (0x90000000 + i) = Bytes.byteAt [5, 144, 238, 9] i :=
    (hm.state i hi).trans (congrArg (fun r : ℤ × Bytes => r.2.byteAt i) hread)
  have hcount : m.registers .rax = Width.ofInt .dword 12 :=
    hm.count.trans (congrArg (fun r : ℤ × Bytes => Width.ofInt .dword r.1) hread)
  have hbehind : m.memory 0x90000003 = 9 := by
    rw [hm.others _ ?_ ?_]
    · exact hstarts.scene.state 3 (show 3 < 4 by decide)
    · rw [hfields]
      decide
    · rw [Span.contains_eq_false_iff]
      exact .inl (show 0x90000003 < 0xb0000000 by decide)
  exact ⟨hm.next, hcount.trans (by decide), hstate 0 (by decide), hstate 1 (by decide),
    hstate 2 (by decide), hbehind⟩

end Program

end PortCodec
