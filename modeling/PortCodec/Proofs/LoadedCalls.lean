import PortCodec.Codec.Build
import PortCodec.Proofs.BufferSafety
import PortCodec.Proofs.CompiledAccess
import PortCodec.Proofs.CompiledReading
import PortCodec.Proofs.CompiledWriting
import PortCodec.Proofs.Machine.Processor
import PortCodec.Proofs.TextSize

/-! Calls of loaded programs. The code of a port finds its buffers in the segments of a call, comes
back without being stopped and has done to them what the layout says. So a codec that runs its code
cannot be told from one that is interpreted. -/

namespace PortCodec

theorem lookup_zip {α β : Type} [BEq α] [LawfulBEq α] {ks : List α} {vs : List β} {k : α} {v : β}
    {i : ℕ} (h : ks.Nodup) (hk : ks[i]? = some k) (hv : vs[i]? = some v) :
    (ks.zip vs).lookup k = some v := by
  induction ks generalizing vs i with
  | nil => cases hk
  | cons k' ks ih =>
    cases vs with
    | nil => cases hv
    | cons v' vs =>
      obtain ⟨hnot, hnodup⟩ := List.nodup_cons.1 h
      cases i with
      | zero =>
        cases hk
        cases hv
        simp
      | succ i =>
        have hne : (k == k') = false := by
          rw [beq_eq_false_iff_ne]
          rintro rfl
          exact hnot (List.mem_of_getElem? hk)
        rw [List.zip_cons_cons, List.lookup_cons, hne]
        exact ih hnodup hk hv

namespace Layout

variable {p : Port} {st line : Bytes}

/-- A line is not used up behind its end. -/
theorem deserialize_bounds (hv : p.Valid) (st line : Bytes) :
    -1 ≤ ((plan p).deserialize st line).1 ∧ ((plan p).deserialize st line).1 ≤ line.length := by
  obtain ⟨body, last, hprogram, hlast, hbody⟩ := plan_proper hv
  have hrest :=
    (Line.readSteps_suffix (Line.clearFirst (plan p).storageSize st) line body).length_le
  rw [deserialize_of_program hprogram hlast fun s h => (hbody s h).1]
  dsimp only
  split_ifs
  · simp [blank]
  · omega

end Layout

namespace Program.Loaded

open X86

/-- The code of a port, compiled and loaded for this host, if its jumps can reach all of it. -/
structure CodeOf (m : Loaded) (p : Port) : Prop where
  compiled : compile (.plan p) hostConvention = .ok m.program
  loaded : m.program.load (.plan p) Codec.loadBase = .ok m
  size_lt : Target.codeSize ⟨.plan p, hostConvention⟩ < 2 ^ 31

theorem hostConvention_mem : hostConvention ∈ Convention.all := by decide

theorem codeSize_host (p : Port) : Target.codeSize ⟨.plan p, hostConvention⟩ =
    behind .bits64 0 (Target.items ⟨.plan p, hostConvention⟩) :=
  codeSize_eq hostConvention_mem

def target (m : Loaded) : Target := ⟨m.layout, hostConvention⟩

theorem target_pointer (m : Loaded) : m.target.pointer = .qword := rfl

/-- The arguments of routines are all in registers. -/
theorem area_eq {arity : ℕ} (h : arity ≤ 6) (m : Loaded) : m.target.area arity = 8 := by
  simp only [Target.area]
  rw [if_pos (show arity ≤ m.target.convention.arguments.length from h)]
  rfl

/-- A scene with the code of a program, at the places that calls have. -/
def scene (m : Loaded) (name : String) (own : Bytes) (arity depth : ℕ)
    (others reads writes : List Span) (jumps : ℕ → Bool := fun _ => true) : Scene where
  target := m.target
  image := m.image.toList
  base := m.base.toNat
  entry := m.entry name
  bytes := own
  state := statePlace
  low := stackPlace
  top := stackPlace + stackSize
  back := backPlace
  arity
  depth
  others
  reads
  writes
  jumps

/-- Buffers that are apart from the state and from each other. -/
structure High (buffers : List Segment) : Prop where
  apart : (buffers.map Segment.span).Pairwise Span.Apart
  start_le : ∀ s ∈ buffers, textPlace ≤ s.start
  stop_lt : ∀ s ∈ buffers, s.span.stop < 2 ^ 64
  access : ∀ s ∈ buffers, s.access ≠ .execute

variable {m : Loaded} {p : Port} {own : Bytes} {buffers : List Segment} {name : String}
  {arguments : List ℕ} {after : Machine} {x : ℕ}

theorem statePlace_lt : statePlace < 2 ^ 64 := by decide

theorem stack_mem : stack ∈ m.segments buffers := .tail _ (.head _)

theorem frame_mem : m.frame ∈ m.segments buffers := .tail _ (.tail _ (.head _))

theorem mem_segments {s : Segment} (h : s ∈ buffers) : s ∈ m.segments buffers :=
  .tail _ (.tail _ (.tail _ h))

theorem code_span : (⟨m.base.toNat, m.image.toList.length⟩ : Span) = m.code.span :=
  congrArg (Span.mk _) Array.length_toList

theorem stateBuffer_contains (h : own.length = m.layout.storageSize)
    (hx : Span.contains ⟨statePlace, m.layout.storageSize⟩ x = true) :
    (stateBuffer own).contains x = true := by
  rw [← Segment.contains_span, Segment.span]
  simp only [stateBuffer, List.size_toArray, h]
  exact hx

theorem high_nil : High [] := ⟨.nil, by simp, by simp, by simp⟩

theorem high_singleton {s : Segment} (hstart : textPlace ≤ s.start)
    (hstop : s.start + s.bytes.size < 2 ^ 64) (haccess : s.access ≠ .execute) : High [s] := by
  refine ⟨List.pairwise_singleton _ _, ?_, ?_, ?_⟩ <;> rintro _ (_ | ⟨_, ⟨⟩⟩)
  · exact hstart
  · exact hstop
  · exact haccess

def access (m : Loaded) (name table : String) (own : Bytes) (k i : Int64) : AccessScene where
  target := m.target
  image := m.image.toList
  base := m.base.toNat
  entry := m.entry name
  table := m.entry table
  bytes := own
  state := statePlace
  controller := k.toUInt64.toNat
  control := i.toUInt64.toNat
  low := stackPlace
  top := stackPlace + stackSize
  back := backPlace

def writing (m : Loaded) (own : Bytes) : WritingScene where
  target := m.target
  image := m.image.toList
  base := m.base.toNat
  entry := m.entry "serialize"
  bytes := own
  state := statePlace
  out := textPlace
  low := stackPlace
  top := stackPlace + stackSize
  back := backPlace

def reading (m : Loaded) (own line : Bytes) : ReadingScene where
  target := m.target
  image := m.image.toList
  base := m.base.toNat
  entry := m.entry "deserialize"
  bytes := own
  state := statePlace
  text := line
  line := linePlace
  low := stackPlace
  top := stackPlace + stackSize
  back := backPlace

/-- Code, stack, return address and state have places of their own, before the other buffers. -/
theorem places_apart {size n : ℕ} {others : List Span} (hsize : size < 2 ^ 31) (hn : n < 2 ^ 31)
    (hapart : others.Pairwise Span.Apart) (hothers : ∀ s ∈ others, textPlace ≤ s.start) :
    (⟨0x10000, size⟩ :: ⟨stackPlace, stackSize⟩ :: ⟨stackPlace + stackSize, 8⟩ ::
      ⟨statePlace, n⟩ :: others).Pairwise Span.Apart := by
  have hbefore (t : Span) (ht : t.stop ≤ textPlace) : ∀ s ∈ others, t.Apart s :=
    fun s hs => .inl (ht.trans (hothers s hs))
  simp only [List.pairwise_cons, List.mem_cons, forall_eq_or_imp]
  refine ⟨⟨?_, ?_, ?_, hbefore _ ?_⟩, ⟨?_, ?_, hbefore _ ?_⟩, ⟨?_, hbefore _ ?_⟩, hbefore _ ?_,
    hapart⟩ <;>
  · simp only [Span.Apart, Span.stop, stackPlace, stackSize, statePlace, textPlace]
    omega

namespace CodeOf

section Code

variable (hm : m.CodeOf p)
include hm

theorem facts : m.layout = .plan p ∧ m.base = Codec.loadBase ∧
    m.program.convention = hostConvention ∧ m.program.link m.base = .ok (m.image, m.globals) := by
  have hload := hm.loaded
  unfold load at hload
  split_ifs at hload with hconvention
  split at hload
  · cases hload
  next image globals hlink =>
    obtain ⟨program, layout, base, image', globals'⟩ := m
    cases hload
    exact ⟨rfl, rfl, not_not.1 hconvention, hlink⟩

theorem layout_eq : m.layout = .plan p := hm.facts.1

theorem base_eq : m.base.toNat = 0x10000 := by
  rw [hm.facts.2.1]
  rfl

theorem mode_eq : m.program.mode = .bits64 := congrArg Convention.mode hm.facts.2.2.1

theorem codeSize_lt : m.target.codeSize < 2 ^ 31 := by
  rw [target, hm.layout_eq]
  exact hm.size_lt

theorem image_size_lt : m.image.size < 2 ^ 31 := by
  have hc := hostConvention_mem
  have hsize := (compiled_of_compile hc hm.compiled).image_size hc hm.facts.2.2.2
  exact hsize.trans_lt hm.size_lt

/-- The code can be loaded where it is, and calls find its routines. -/
theorem loadable : Loadable m.target m.image.toList m.base.toNat
    fun x => m.entry x.1 := by
  have hc := hostConvention_mem
  obtain ⟨hlayout, -, -, hlink⟩ := hm.facts
  obtain ⟨address, hglobals, hload⟩ := (compiled_of_compile hc hm.compiled).loadable hc hlink
  have hentry : ∀ x ∈ exports, m.entry x.1 = (address x).toNat := by
    have hlookup : ∀ x ∈ exports,
        (exports.map fun x => (x.1, address x)).lookup x.1 = some (address x) := by
      simp [exports, List.lookup_cons]
    intro x hx
    rw [entry, hglobals, hlookup x hx, Option.getD_some]
  rw [target, hlayout]
  intro g memory hmode hholds hinside
  obtain ⟨place, hplace, hlies⟩ := hload g memory hmode hholds hinside
  exact ⟨place, fun x hx => (hplace x hx).trans (hentry x hx).symm, hlies⟩

theorem storageSize_lt : m.layout.storageSize < 2 ^ 31 :=
  @Program.storageSize_lt m.target hostConvention_mem hm.codeSize_lt

theorem maxTextSize_lt : m.layout.maxTextSize < 2 ^ 31 := by
  have hindex := @tableSize_le m.target hostConvention_mem
  have htext := Layout.maxTextSize_le p
  rw [← hm.layout_eq] at htext
  exact (htext.trans hindex).trans_lt hm.codeSize_lt

end Code

section Call

variable (hm : m.CodeOf p) (hown : own.length = m.layout.storageSize) (hb : High buffers)
include hm hown hb

theorem segments_apart :
    ((m.segments (stateBuffer own :: buffers)).map Segment.span).Pairwise Span.Apart := by
  have hstate := hown ▸ hm.storageSize_lt
  have hspans : (m.segments (stateBuffer own :: buffers)).map Segment.span =
      ⟨0x10000, m.image.size⟩ :: ⟨stackPlace, stackSize⟩ :: ⟨stackPlace + stackSize, 8⟩ ::
        ⟨statePlace, own.length⟩ :: buffers.map Segment.span := by
    simp [segments, Segment.span, code, stack, frame, stateBuffer, hm.base_eq, hm.mode_eq,
      Bytes.littleEndian_length, Mode.pointer, Width.size]
  rw [hspans]
  exact places_apart hm.image_size_lt hstate hb.apart (List.forall_mem_map.2 hb.start_le)

theorem starts {arity depth : ℕ} {others reads writes : List Span} {jumps : ℕ → Bool}
    (harity : arity ≤ 6) (hdepth : depth ≤ stackSize) (hapart : others.Pairwise Span.Apart)
    (hothers : ∀ s ∈ others, textPlace ≤ s.start ∧ s.stop < 2 ^ 64) :
    (m.scene name own arity depth others reads writes jumps).Starts
      (m.entering name arguments (stateBuffer own :: buffers)) := by
  have hbase := hm.base_eq
  have hsize := hm.image_size_lt
  have hstate := hown ▸ hm.storageSize_lt
  have hsegments := hm.segments_apart hown hb
  have hlays (s : Segment) (hs : s ∈ m.segments (stateBuffer own :: buffers)) :
      Lays (m.entering name arguments (stateBuffer own :: buffers)).memory s.start s.bytes.toList :=
    lays_memoryOf hsegments hs
  have hspace : (m.scene name own arity depth others reads writes jumps).guard.space = 2 ^ 64 :=
    show Width.span .qword = 2 ^ 64 by decide
  have harea := area_eq harity m
  have hspans : (m.scene name own arity depth others reads writes jumps).spans =
      ⟨m.base.toNat, m.image.toList.length⟩ :: ⟨statePlace, own.length⟩ ::
        ⟨stackPlace, stackPlace + stackSize - stackPlace⟩ ::
          ⟨stackPlace + stackSize, 8⟩ :: others := by
    rw [← harea]
    rfl
  rw [Array.length_toList] at hspans
  exact {
    apart := by
      -- the state comes before the stack here
      rw [hspans, hbase, Nat.add_sub_cancel_left]
      have hplaces := places_apart hsize hstate hapart fun s hs => (hothers s hs).1
      have hperm := (@List.perm_middle _ ⟨statePlace, own.length⟩
        [⟨stackPlace, stackSize⟩, ⟨stackPlace + stackSize, 8⟩] others).cons ⟨0x10000, m.image.size⟩
      exact (hperm.pairwise_iff Span.Apart.symm).1 hplaces
    inside := by
      rw [hspace, hspans]
      simp only [List.mem_cons, forall_eq_or_imp, Span.stop, stackPlace, stackSize,
        statePlace, hbase]
      refine ⟨?_, ?_, ?_, ?_, fun s hs => (hothers s hs).2⟩ <;> omega
    room := Nat.add_le_add_left hdepth _
    size := hown.ge
    code := hlays _ List.mem_cons_self
    state := hlays _ (mem_segments List.mem_cons_self)
    back := by
      have hback := hlays m.frame frame_mem
      simp only [frame, hm.mode_eq] at hback
      exact hback
    back_lt := by
      rw [hspace]
      exact show 0x1000 < 2 ^ 64 by decide
    stackPointer := rfl
    next := rfl }

/-- Nothing but the code of the program can be run. -/
theorem executable_eq :
    (Guard.of m.program.mode (m.segments (stateBuffer own :: buffers))).executable =
      m.code.contains := by
  have hsegments := hm.segments_apart hown hb
  funext x
  rw [Bool.eq_iff_iff]
  constructor
  · intro hx
    obtain ⟨s, hs, haccess⟩ := (Option.any_eq_true ..).1 hx
    have hmem : s ∈ m.segments (stateBuffer own :: buffers) := List.mem_of_find?_eq_some hs
    have haccess : s.access = .execute := by simpa using haccess
    simp only [segments, List.mem_cons] at hmem
    obtain rfl | rfl | rfl | rfl | hmem := hmem
    · exact contains_of_segmentAt? hs
    · cases haccess
    · cases haccess
    · cases haccess
    · exact absurd haccess (hb.access s hmem)
  · intro hx
    change Option.any _ (segmentAt? _ x) = true
    rw [segmentAt?_eq_some hsegments List.mem_cons_self hx]
    rfl

theorem guard_within {arity depth : ℕ} {others reads writes : List Span} {jumps : ℕ → Bool}
    (harity : arity ≤ 6)
    (hreads : ∀ t ∈ reads, ∀ x, t.contains x = true →
      ∃ s ∈ m.segments (stateBuffer own :: buffers), s.contains x = true)
    (hwrites : ∀ t ∈ writes, ∀ x, t.contains x = true →
      ∃ s ∈ m.segments (stateBuffer own :: buffers), s.access = .write ∧ s.contains x = true) :
    (m.scene name own arity depth others reads writes jumps).guard.Within
      (.of m.program.mode (m.segments (stateBuffer own :: buffers))) := by
  have hsegments := hm.segments_apart hown hb
  have hcode : (m.scene name own arity depth others reads writes jumps).code = m.code.span :=
    code_span
  have hstack : (m.scene name own arity depth others reads writes jumps).stack = stack.span := by
    simp [Scene.stack, scene, stack, Segment.span]
  have hframe : (m.scene name own arity depth others reads writes jumps).frame = m.frame.span := by
    have harea := area_eq harity m
    simp only [Scene.frame, scene, harea, frame, Segment.span, List.size_toArray,
      Bytes.littleEndian_length, hm.mode_eq]
    rfl
  constructor
  case mode => exact hm.mode_eq
  case executable =>
    rw [hm.executable_eq hown hb]
    funext x
    exact (congrFun (congrArg Span.contains hcode) x).symm
  case readable =>
    intro x hx
    have hin : ∃ s ∈ m.segments (stateBuffer own :: buffers), s.contains x = true := by
      simp only [Scene.guard, List.any_cons, Bool.or_eq_true, List.any_eq_true,
        hstack, hframe] at hx
      rcases hx with hx | hx | ⟨t, ht, hx⟩
      · exact ⟨stack, stack_mem, (stack.contains_span x).symm.trans hx⟩
      · exact ⟨m.frame, frame_mem, hx⟩
      · exact hreads t ht x hx
    obtain ⟨s, hs, hx⟩ := hin
    change (segmentAt? _ x).isSome = true
    rw [segmentAt?_eq_some hsegments hs hx]
    rfl
  case writable =>
    intro x hx
    have hin : ∃ s ∈ m.segments (stateBuffer own :: buffers),
        s.access = .write ∧ s.contains x = true := by
      simp only [Scene.guard, List.any_cons, Bool.or_eq_true, List.any_eq_true, hstack] at hx
      rcases hx with hx | ⟨t, ht, hx⟩
      · exact ⟨stack, stack_mem, rfl, (stack.contains_span x).symm.trans hx⟩
      · exact hwrites t ht x hx
    obtain ⟨s, hs, haccess, hx⟩ := hin
    change Option.any _ (segmentAt? _ x) = true
    rw [segmentAt?_eq_some hsegments hs hx]
    exact decide_eq_true haccess
  case jumps => exact fun _ _ => rfl

/-- A routine that comes back under a narrower guard comes back in the call. -/
theorem call_eq {g : Guard} {q : Machine → Prop}
    (hg : g.Within (.of m.program.mode (m.segments (stateBuffer own :: buffers))))
    (h : Eventually g q (m.entering name arguments (stateBuffer own :: buffers)))
    (hq : ∀ m', q m' → m'.next = backPlace) :
    ∃ after, m.call name arguments (stateBuffer own :: buffers) = some after ∧ q after := by
  refine (h.within hg).runTo hq ?_ ?_ (Machine.intact_of_memory_eq rfl)
  · rw [Guard.space, show (Guard.of m.program.mode _).mode = .bits64 from hm.mode_eq]
    decide
  · rw [hm.executable_eq hown hb]
    have hbase := hm.base_eq
    simp [Segment.contains, code, backPlace, hbase]

end Call

/-- Arguments are found in their registers. -/
theorem passes (hm : m.CodeOf p) {s : Scene} {i v : ℕ} (hs : s.target.convention = hostConvention)
    (harguments : arguments[i]? = some v) (hi : i < 6) (hv : v < 2 ^ 64) :
    s.Passes (m.entering name arguments buffers) i v := by
  obtain ⟨r, hr⟩ : ∃ r, hostConvention.arguments[i]? = some r := ⟨_, List.getElem?_eq_getElem hi⟩
  have hne : r ≠ .rsp := by
    have h : ∀ r ∈ hostConvention.arguments, r ≠ .rsp := by decide
    exact h r (List.mem_of_getElem? hr)
  have hlookup := lookup_zip (show hostConvention.arguments.Nodup by decide) hr harguments
  have hvalue : (m.entering name arguments buffers).registers r = v := by
    simp only [entering, hm.facts.2.2.1, if_neg hne, hlookup, Option.getD_some]
  have hpointer : s.target.pointer = .qword := by
    rw [Target.pointer, Target.mode, hs]
    rfl
  have hspan : Width.span .qword = 2 ^ 64 := by decide
  rw [Scene.Passes, hs, Convention.argument, hr, hpointer]
  change some ((m.entering name arguments buffers).registers r % Width.span .qword) = some v
  rw [hvalue, hspan, Nat.mod_eq_of_lt hv]

section Access

variable {k i : Int64} {arity : ℕ} {writes : List Span} {table : String} (hm : m.CodeOf p)
  (hown : own.length = m.layout.storageSize)
include hm hown

theorem access_scene_starts (harity : arity ≤ 6) :
    ((access m name table own k i).scene arity writes).Starts
      (m.entering name arguments [stateBuffer own]) :=
  hm.starts hown high_nil harity (show 0 ≤ 128 by decide) .nil (by simp)

theorem access_starts (harity : arity ≤ 6) (hs : ∃ tail, arguments = m.base.toNat :: statePlace ::
      k.toUInt64.toNat :: i.toUInt64.toNat :: tail) :
    (access m name table own k i).Starts ((access m name table own k i).scene arity writes)
      (m.entering name arguments [stateBuffer own]) := by
  obtain ⟨tail, rfl⟩ := hs
  exact ⟨hm.access_scene_starts hown harity, hm.passes rfl rfl (by decide) statePlace_lt,
    hm.passes rfl rfl (by decide) k.toUInt64.toNat_lt,
    hm.passes rfl rfl (by decide) i.toUInt64.toNat_lt⟩

theorem access_within {mark done : Mark} {entry : ℕ → Mark} (harity : arity ≤ 6)
    (hmark : (table, mark) ∈ exports)
    (hpart : m.target.table mark done entry <:+: m.target.items)
    (hwrites : ∀ w ∈ writes, w = (access m name table own k i).fields) :
    ((access m name table own k i).scene arity writes).guard.Within
      (.of m.program.mode (m.segments [stateBuffer own])) := by
  have hstarts : ((access m name table own k i).scene arity writes).Starts
      (m.entering name [] [stateBuffer own]) := hm.access_scene_starts hown harity
  have hfields (x : ℕ) (hx : (access m name table own k i).fields.contains x = true) :
      (stateBuffer own).contains x = true :=
    stateBuffer_contains hown hx
  refine hm.guard_within hown high_nil harity ?_ fun w hw x hx => ?_
  · simp only [List.mem_cons, List.not_mem_nil, or_false, forall_eq_or_imp, forall_eq]
    refine ⟨fun x hx => ⟨_, mem_segments List.mem_cons_self, hfields x hx⟩, fun x hx =>
      ⟨m.code, List.mem_cons_self, ?_⟩⟩
    have hin := AccessScene.slots_inside hstarts hostConvention_mem hm.loadable hmark rfl hpart hx
    rw [← Segment.contains_span, ← code_span]
    exact hin
  · obtain rfl := hwrites w hw
    exact ⟨_, mem_segments List.mem_cons_self, rfl, hfields x hx⟩

end Access

end CodeOf

/-- A call works on the first bytes of the state and leaves the others alone. -/
theorem callIn_on {rest out own' : Bytes} (hown : own.length = m.layout.storageSize)
    (hcall : m.call name (m.base.toNat :: statePlace :: arguments) (stateBuffer own :: buffers) =
      some after) (hlength : own'.length = own.length)
    (hstate : Lays after.memory statePlace own') :
    (m.callIn name arguments buffers).on ⟨own ++ rest, out⟩ = (.ok after, ⟨own' ++ rest, out⟩) := by
  have htake : (own ++ rest).take m.layout.storageSize = own := List.take_left' hown
  have hslice : after.slice statePlace own.length = own' := hlength ▸ Machine.slice_eq hstate
  simp only [callIn, BufferWork.on_bind, BufferWork.on_get, htake, hcall, BufferWork.on_modify,
    BufferWork.on_pure, hslice, List.drop_left]

/-- The number that an argument stands for. -/
theorem toInt_argument (k : Int64) : Width.toInt .qword k.toUInt64.toNat = k.toInt := by
  have hspan : Width.span .qword = 2 ^ 64 := by decide
  rw [Width.toInt, hspan]
  exact (BitVec.toInt_eq_toNat_bmod k.toBitVec).symm

/-- A value is passed with copies of its sign above it, which are not looked at. -/
theorem value_argument (v : Int16) : v.toInt64.toUInt64.toNat % 2 ^ 16 = v.toUInt16.toNat := by
  have hlong : v.toInt64.toUInt64.toNat = (v.toBitVec.signExtend 64).toNat := rfl
  have hshort : v.toUInt16.toNat = v.toBitVec.toNat := rfl
  have hlt := v.toBitVec.isLt
  rw [hlong, hshort, BitVec.toNat_signExtend, BitVec.toNat_setWidth]
  split_ifs <;> omega

theorem access_numbers (k i : Int64) (table : String) :
    (access m name table own k i).numbers = (k.toInt, i.toInt) := by
  simp only [AccessScene.numbers, access, target_pointer, toInt_argument]

theorem toInt16_of_mod {n : ℕ} {v : Int16} (h : n % 2 ^ 16 = v.toUInt16.toNat) :
    (UInt16.ofNat n).toInt16 = v := by
  have heq : UInt16.ofNat n = v.toUInt16 := UInt16.toNat_inj.1 (by simpa using h)
  rw [heq, Int16.toInt16_toUInt16]

/-- A count is returned as a number with a sign. -/
theorem toInt_ofInt {n : ℤ} (hlow : -1 ≤ n) (hhigh : n < 2 ^ 63) :
    Width.toInt .qword (Width.ofInt .qword n) = n := by
  have hspan : Width.span .qword = 2 ^ 64 := by decide
  rw [Width.toInt, Width.ofInt, hspan, Int.toNat_of_nonneg (Int.emod_nonneg _ (by decide)),
    Int.emod_bmod, Int.bmod_eq_of_le (by omega) (by omega)]

/-- What is at the place of a buffer is not on the stack. -/
theorem stack_contains_eq_false (h : statePlace ≤ x) :
    Span.contains ⟨stackPlace, stackPlace + stackSize - stackPlace⟩ x = false := by
  rw [Span.contains_eq_false_iff]
  simp only [Span.stop, stackPlace, stackSize, statePlace] at h ⊢
  omega

section Routines

variable {rest out pre tail room line : Bytes} (hm : m.CodeOf p)
  (hown : own.length = m.layout.storageSize)
include hm hown

theorem readIn_on (k i : Int64) : (m.readIn k i).on ⟨own ++ rest, out⟩ =
    (.ok (m.layout.read own k.toInt i.toInt), ⟨own ++ rest, out⟩) := by
  have hstarts : (access m "read" "read_table" own k i).Starts
      (access m "read" "read_table" own k i).reading (m.entering "read"
        [m.base.toNat, statePlace, k.toUInt64.toNat, i.toUInt64.toNat] [stateBuffer own]) :=
    hm.access_starts hown (by decide) ⟨[], rfl⟩
  have hrun :=
    hstarts.loaded_read hm.layout_eq hostConvention_mem hm.codeSize_lt hm.loadable rfl rfl
  have hwithin : (access m "read" "read_table" own k i).reading.guard.Within
      (.of m.program.mode (m.segments [stateBuffer own])) :=
    hm.access_within hown (by decide) (show ("read_table", .readTable) ∈ exports by decide)
      (Target.readTable_infix _) (by simp)
  obtain ⟨after, hcall, hafter⟩ := hm.call_eq hown high_nil hwithin hrun fun m' h => h.next
  have hstate : Lays after.memory statePlace own := by
    intro j hj
    rw [hafter.others (statePlace + j) (stack_contains_eq_false (Nat.le_add_right _ _))]
    exact hstarts.scene.state j hj
  have hvalue : (UInt16.ofNat (after.registers .rax)).toInt16 =
      m.layout.read own k.toInt i.toInt := by
    have hvalue := hafter.value
    rw [access_numbers] at hvalue
    exact toInt16_of_mod hvalue
  simp only [readIn, BufferWork.on_bind, callIn_on hown hcall rfl hstate,
    BufferWork.on_pure, hvalue]

theorem writeIn_on (k i : Int64) (v : Int16) : (m.writeIn k i v).on ⟨own ++ rest, out⟩ =
    (.ok (), ⟨m.layout.write own k.toInt i.toInt v ++ rest, out⟩) := by
  have hstarts : (access m "write" "write_table" own k i).Starts
      (access m "write" "write_table" own k i).writing (m.entering "write" [m.base.toNat,
        statePlace, k.toUInt64.toNat, i.toUInt64.toNat, v.toInt64.toUInt64.toNat]
        [stateBuffer own]) :=
    hm.access_starts hown (by decide) ⟨[v.toInt64.toUInt64.toNat], rfl⟩
  have hpasses : (access m "write" "write_table" own k i).writing.Passes (m.entering "write"
      [m.base.toNat, statePlace, k.toUInt64.toNat, i.toUInt64.toNat, v.toInt64.toUInt64.toNat]
      [stateBuffer own]) 4 v.toInt64.toUInt64.toNat :=
    hm.passes rfl rfl (by decide) v.toInt64.toUInt64.toNat_lt
  have hrun := hstarts.loaded_write hpasses (value_argument v) hm.layout_eq hostConvention_mem
    hm.codeSize_lt hm.loadable rfl rfl
  have hwithin : (access m "write" "write_table" own k i).writing.guard.Within
      (.of m.program.mode (m.segments [stateBuffer own])) :=
    hm.access_within hown (by decide) (show ("write_table", .writeTable) ∈ exports by decide)
      (Target.writeTable_infix _) (by simp)
  obtain ⟨after, hcall, hafter⟩ := hm.call_eq hown high_nil hwithin hrun fun m' h => h.next
  have hstate : Lays after.memory statePlace (m.layout.write own k.toInt i.toInt v) := by
    have hstate := hafter.state
    rw [access_numbers] at hstate
    exact hstate
  simp only [writeIn, BufferWork.on_bind, callIn_on hown hcall (Layout.length_write ..) hstate,
    BufferWork.on_pure]

/-- The call writes the line to the front of its room. -/
theorem serialize_call (hv : p.Valid) (hroom : room.length = m.layout.maxTextSize) :
    ∃ after, m.call "serialize" [m.base.toNat, statePlace, textPlace]
        [stateBuffer own, textBuffer room] = some after ∧
      after.registers .rax = (m.layout.serialize own).length ∧
      Lays after.memory statePlace own ∧ Lays after.memory textPlace
        (m.layout.serialize own ++ room.drop (m.layout.serialize own).length) := by
  have hmax := hm.maxTextSize_lt
  have hlong : (m.layout.serialize own).length ≤ m.layout.maxTextSize :=
    Layout.length_serialize_le _ _
  have hplace : textPlace + room.length < 2 ^ 64 := by
    simp only [textPlace]
    omega
  have hb : High [textBuffer room] :=
    high_singleton le_rfl (by simpa [textBuffer] using hplace) Access.noConfusion
  have houtput : (writing m own).output = ⟨textPlace, (m.layout.serialize own).length⟩ := rfl
  have hstarts : (writing m own).Starts (m.entering "serialize"
      [m.base.toNat, statePlace, textPlace] [stateBuffer own, textBuffer room]) := by
    refine ⟨hm.starts hown hb (by decide) (show 64 ≤ 128 by decide)
      (List.pairwise_singleton _ _) ?_, hm.passes rfl rfl (by decide) statePlace_lt,
      hm.passes rfl rfl (by decide) (show textPlace < 2 ^ 64 by decide)⟩
    simp only [List.mem_singleton, forall_eq, houtput, Span.stop]
    exact ⟨le_rfl, by omega⟩
  have hwithin : (writing m own).scene.guard.Within
      (.of m.program.mode (m.segments [stateBuffer own, textBuffer room])) := by
    refine hm.guard_within hown hb (by decide) ?_ ?_ <;>
      simp only [List.mem_singleton, forall_eq] <;> intro x hx
    · exact ⟨_, mem_segments List.mem_cons_self, stateBuffer_contains hown hx⟩
    · refine ⟨textBuffer room, mem_segments (by simp), rfl, ?_⟩
      rw [houtput, Span.contains_iff] at hx
      simp only [Span.stop] at hx
      simp only [Segment.contains_iff, textBuffer, List.size_toArray]
      omega
  have hrun := hstarts.loaded hv hm.layout_eq hostConvention_mem hm.codeSize_lt hm.loadable rfl
  obtain ⟨after, hcall, hafter⟩ := hm.call_eq hown hb hwithin hrun fun m' h => h.next
  -- what is not in the line is as it was
  have hothers (x : ℕ) (hx : x < textPlace ∨ textPlace + (m.layout.serialize own).length ≤ x)
      (hx' : statePlace ≤ x) :
      after.memory x = memoryOf (m.segments [stateBuffer own, textBuffer room]) x :=
    hafter.others x (houtput ▸ Span.contains_eq_false_iff.2 hx) (stack_contains_eq_false hx')
  refine ⟨after, hcall, hafter.length, fun j hj => ?_, ?_⟩
  · have hsmall := hown ▸ hm.storageSize_lt
    rw [hothers _ (.inl (by simp only [statePlace, textPlace]; omega)) (Nat.le_add_right _ _)]
    exact hstarts.scene.state j hj
  · have hlays : Lays (memoryOf (m.segments [stateBuffer own, textBuffer room])) textPlace room :=
      lays_memoryOf (hm.segments_apart hown hb)
        (mem_segments (List.mem_cons_of_mem _ List.mem_cons_self))
    have hline : Lays after.memory textPlace (m.layout.serialize own) := hafter.line
    refine hline.append fun j hj => ?_
    rw [hothers _ (.inr (Nat.le_add_right _ _)) (by simp only [statePlace, textPlace]; omega)]
    exact hlays.drop _ j hj

theorem serializeIn_on (hv : p.Valid) (hroom : room.length = m.layout.maxTextSize) :
    (m.serializeIn pre.length).on ⟨own ++ rest, pre ++ (room ++ tail)⟩ =
      (.ok (m.layout.serialize own).length, ⟨own ++ rest, pre ++ (m.layout.serialize own ++
        (room.drop (m.layout.serialize own).length ++ tail))⟩) := by
  obtain ⟨after, hcall, hlength, hstate, htext⟩ := serialize_call hm hown hv hroom
  have htake : (room ++ tail).take m.layout.maxTextSize = room := List.take_left' hroom
  have hlong : (m.layout.serialize own).length ≤ room.length :=
    hroom ▸ Layout.length_serialize_le _ _
  have hslice : after.slice textPlace room.length =
      m.layout.serialize own ++ room.drop (m.layout.serialize own).length := by
    rw [← Machine.slice_eq htext, List.length_append, List.length_drop, Nat.add_sub_cancel' hlong]
  simp only [serializeIn, BufferWork.on_bind, BufferWork.on_get, List.drop_left, htake,
    callIn_on hown hcall rfl hstate, BufferWork.on_modify, BufferWork.on_pure, hslice, hlength,
    List.take_left, ← List.drop_drop, List.append_assoc]

/-- The call reads the line into the state. -/
theorem deserialize_call (hv : p.Valid) (hline : line.length < 2 ^ 63) :
    ∃ after, m.call "deserialize" [m.base.toNat, statePlace, linePlace]
        [stateBuffer own, lineBuffer line] = some after ∧
      after.registers .rax = Width.ofInt .qword (m.layout.deserialize own line).1 ∧
      Lays after.memory statePlace (m.layout.deserialize own line).2 := by
  have hplace : linePlace + (Line.terminated line).length < 2 ^ 64 := by
    have hend : (Line.terminated line).length ≤ line.length + 1 := by
      unfold Line.terminated
      split_ifs <;> simp
    simp only [linePlace]
    omega
  have hlow : textPlace ≤ linePlace := by decide
  have hb : High [lineBuffer line] :=
    high_singleton hlow (by simpa [lineBuffer] using hplace) Access.noConfusion
  have hsource : (reading m own line).source = ⟨linePlace, (Line.terminated line).length⟩ := rfl
  have hstarts : (reading m own line).Starts (m.entering "deserialize"
      [m.base.toNat, statePlace, linePlace] [stateBuffer own, lineBuffer line]) := by
    refine ⟨hm.starts hown hb (by decide) (show 16 ≤ 128 by decide)
      (List.pairwise_singleton _ _) ?_,
      lays_memoryOf (hm.segments_apart hown hb)
        (mem_segments (List.mem_cons_of_mem _ List.mem_cons_self)),
      hm.passes rfl rfl (by decide) statePlace_lt,
      hm.passes rfl rfl (by decide) (show linePlace < 2 ^ 64 by decide)⟩
    simp only [List.mem_singleton, forall_eq, hsource, Span.stop]
    exact ⟨hlow, hplace⟩
  have hfields (x : ℕ) (hx : (reading m own line).fields.contains x = true) :
      (stateBuffer own).contains x = true :=
    stateBuffer_contains hown hx
  have hwithin : (reading m own line).scene.guard.Within
      (.of m.program.mode (m.segments [stateBuffer own, lineBuffer line])) := by
    refine hm.guard_within hown hb (by decide) ?_ ?_ <;>
      simp only [List.mem_cons, List.not_mem_nil, or_false, forall_eq_or_imp, forall_eq]
    · refine ⟨fun x hx => ⟨_, mem_segments List.mem_cons_self, hfields x hx⟩, fun x hx =>
        ⟨lineBuffer line, mem_segments (by simp), ?_⟩⟩
      have hend : (Line.terminated line).findIdx isLineEnd < (Line.terminated line).length :=
        List.findIdx_lt_length.2 (List.any_eq_true.1 (Line.any_terminated line))
      have hx := Span.contains_iff.1 hx
      change linePlace ≤ x ∧ x < linePlace + ((Line.terminated line).findIdx isLineEnd + 1) at hx
      simp only [Segment.contains_iff, lineBuffer, List.size_toArray]
      omega
    · exact fun x hx => ⟨_, mem_segments List.mem_cons_self, rfl, hfields x hx⟩
  have hrun := hstarts.loaded hv hm.layout_eq hostConvention_mem hm.codeSize_lt hm.loadable rfl
  obtain ⟨after, hcall, hafter⟩ := hm.call_eq hown hb hwithin hrun fun m' h => h.next
  refine ⟨after, hcall, hafter.count, fun j hj => hafter.state j ?_⟩
  rwa [Layout.length_deserialize, hown] at hj

theorem deserializeIn_on (hv : p.Valid) (hline : line.length < 2 ^ 63) :
    (m.deserializeIn line).on ⟨own ++ rest, out⟩ =
      (.ok (m.layout.deserialize own line).1,
        ⟨(m.layout.deserialize own line).2 ++ rest, out⟩) := by
  obtain ⟨after, hcall, hcount, hstate⟩ := deserialize_call hm hown hv hline
  have hresult : Width.toInt .qword (after.registers .rax) = (m.layout.deserialize own line).1 := by
    have hbounds := Layout.deserialize_bounds hv own line
    rw [← hm.layout_eq] at hbounds
    rw [hcount, toInt_ofInt hbounds.1 (by omega)]
  simp only [deserializeIn, BufferWork.on_bind,
    callIn_on hown hcall (Layout.length_deserialize ..) hstate, BufferWork.on_pure, hresult]

end Routines

/-- Every port has such code, if it is short enough. -/
theorem exists_codeOf {p : Port} (h : Target.codeSize ⟨.plan p, hostConvention⟩ < 2 ^ 31) :
    ∃ m : Loaded, m.CodeOf p := by
  have hc := hostConvention_mem
  obtain ⟨program, hcompile, hconvention, -, hcomp⟩ := compile_eq hc h
  obtain ⟨image, globals, hlink⟩ : ∃ image globals,
      program.link Codec.loadBase = .ok (image, globals) := hcomp.link hc h (.inl rfl)
  refine ⟨⟨program, .plan p, Codec.loadBase, image, globals⟩, hcompile, ?_, h⟩
  simp only [load, hconvention, ne_eq, not_true_eq_false, if_false, hlink]

/-- Loaded code computes the layout of its port, for lines whose length is a number with a sign. -/
theorem CodeOf.computes {m : Loaded} {p : Port} (hm : m.CodeOf p) (hv : p.Valid) :
    m.engine.Computes (.plan p) fun line => line.length < 2 ^ 63 := by
  have hl := hm.layout_eq
  have hproper := Layout.plan_proper hv
  have hsplit (st : Bytes) (h : (Layout.plan p).storageSize ≤ st.length) :
      ∃ own rest, st = own ++ rest ∧ own.length = (Layout.plan p).storageSize :=
    ⟨_, _, (List.take_append_drop _ st).symm, List.length_take_of_le h⟩
  constructor
  case read =>
    intro st out k i hs
    obtain ⟨own, rest, rfl, hown⟩ := hsplit st hs
    rw [Layout.read_append hown, ← hl]
    exact readIn_on hm (hl ▸ hown) k i
  case write =>
    intro st out k i v hs
    obtain ⟨own, rest, rfl, hown⟩ := hsplit st hs
    rw [Layout.write_append hown, ← hl]
    exact writeIn_on hm (hl ▸ hown) k i v
  case serialize =>
    intro st pre text hs htext
    obtain ⟨own, rest, rfl, hown⟩ := hsplit st hs
    have hlong := Layout.length_serialize_le (.plan p) own
    -- the code sees the part of the text that the layout needs
    obtain ⟨room, tail, rfl, hroom⟩ : ∃ room tail, text = room ++ tail ∧
        room.length = (Layout.plan p).maxTextSize :=
      ⟨_, _, (List.take_append_drop _ text).symm, List.length_take_of_le htext⟩
    rw [Layout.serialize_append hproper hown, List.drop_append_of_le_length (hroom ▸ hlong), ← hl,
      List.append_assoc]
    exact serializeIn_on hm (hl ▸ hown) hv (hl ▸ hroom)
  case deserialize =>
    intro st out line hs hline
    obtain ⟨own, rest, rfl, hown⟩ := hsplit st hs
    rw [Layout.deserialize_append hproper hown, ← hl]
    exact deserializeIn_on hm (hl ▸ hown) hv hline

end Program.Loaded

/-- A codec of a port: interpreted, or with the code of the port. -/
structure Codec.Serves (c : Codec) (p : Port) : Prop where
  layout : c.layout = .plan p
  native : ∀ m, c.native = some m → m.CodeOf p

/-- Codecs of valid ports compute the layout, whatever runs them. -/
theorem Codec.Serves.computes {c : Codec} {p : Port} (h : c.Serves p) (hv : p.Valid) :
    c.engine.Computes c.layout fun line => line.length < 2 ^ 63 := by
  rw [h.layout]
  cases hn : c.native with
  | none =>
    rw [engine_of_native_eq_none hn, h.layout]
    exact (Layout.engine_computes hv).mono fun _ _ => trivial
  | some m =>
    rw [engine, hn]
    exact (h.native m hn).computes hv

end PortCodec
