import Mathlib.Data.Finset.Card
import PortCodec.Codec.Registry
import PortCodec.Proofs.Identity
import PortCodec.Proofs.LoadedCalls
import PortCodec.Proofs.RoundTrip

/-! A registry over the whole of its life. Whatever is asked of it, and whatever else goes on in the
workspace, each port gets a codec of its own layout, and ports share a codec exactly as long as they
have the same layout and the registry is not closed. Whether a codec runs compiled code cannot be
told from its answers. -/

namespace PortCodec

namespace Session

variable {ε ε' α β : Type} {q : α → Prop} {q' : β → Prop}

/-- Every result of some work has a property, whatever the workspace. -/
def Yields (work : Session ε α) (q : α → Prop) : Prop :=
  ∀ ⦃w a w'⦄, work.start w = (.ok a, w') → q a

theorem Yields.pure {a : α} (h : q a) : Yields (Pure.pure a : Session ε α) q := by
  rintro w _ _ ⟨⟩
  exact h

theorem Yields.throw (e : ε) : Yields (MonadExcept.throw e : Session ε α) q := by
  rintro w _ _ ⟨⟩

theorem Yields.lift {wrap : ε' → ε} {x : Except ε' α} (h : ∀ a, x = .ok a → q a) :
    Yields (Session.lift wrap x) q := by
  cases x with
  | ok a => exact .pure (h a rfl)
  | error e => exact .throw _

theorem Yields.bind {work : Session ε α} {next : α → Session ε β} (h : Yields work q)
    (hnext : ∀ a, q a → Yields (next a) q') : Yields (work >>= next) q' := by
  intro w b w'' hb
  rw [start_bind] at hb
  cases hw : work.start w with
  | mk result w' =>
    rw [hw] at hb
    cases result with
    | ok a => exact hnext a (h hw) hb
    | error e => cases hb

/-- Nothing has to be known about what comes first. -/
theorem Yields.next {work : Session ε α} {next : α → Session ε β} (h : ∀ a, Yields (next a) q') :
    Yields (work >>= next) q' :=
  .bind (fun _ _ _ _ => trivial : Yields work fun _ => True) fun a _ => h a

theorem Yields.attempt {work : Session ε' α} (h : Yields work q) :
    Yields (Session.attempt work : Session ε (Except ε' α)) fun x => ∀ a, x = .ok a → q a := by
  rintro w x w' hx a rfl
  rw [start_attempt] at hx
  cases hw : work.start w with
  | mk result w'' =>
    rw [hw] at hx
    cases hx
    exact h hw

end Session

namespace Codec

open Session

/-- A codec as it is built for a port: with the port's layout, and code that was compiled from it
and loaded. -/
structure BuiltFor (c : Codec) (o : Options) (p : Port) : Prop where
  layout : c.layout = .plan p
  native : ∀ m, c.native = some m →
    o.toolchain.compile (.plan p) Program.hostConvention = .ok m.program ∧
      m.program.load (.plan p) loadBase = .ok m

theorem buildNative_yields (o : Options) (l : Layout) : Yields (buildNative o l) fun m =>
    o.toolchain.compile l Program.hostConvention = .ok m.program ∧
      m.program.load l loadBase = .ok m := by
  refine .bind (.lift fun code hcode => hcode) fun code hcode => ?_
  refine .bind (.lift fun m hm => hm) fun m hload => ?_
  have hprogram : m.program = code := by
    unfold Program.load at hload
    split_ifs at hload
    split at hload <;> cases hload
    rfl
  have hm : o.toolchain.compile l Program.hostConvention = .ok m.program ∧
      m.program.load l loadBase = .ok m := by
    rw [hprogram]
    exact ⟨hcode, hload⟩
  dsimp only
  split_ifs
  · refine .next fun folder => ?_
    split
    · exact .next fun _ => .next fun _ => .pure hm
    · exact .next fun _ => .pure hm
    · exact .next fun _ => .pure hm
  · exact .pure hm

/-- Codecs are built for valid ports only. -/
theorem build_yields (o : Options) (p : Port) :
    Yields (build o p) fun c => c.BuiltFor o p ∧ p.validate = .ok () := by
  refine .next fun backend => .bind (.lift fun _ hv => hv) fun _ hv => ?_
  have hinterpreted : BuiltFor { port := p, layout := .plan p, backend := .interpreter } o p :=
    ⟨rfl, nofun⟩
  dsimp only
  split
  · exact .pure ⟨hinterpreted, hv⟩
  · refine .bind (buildNative_yields o _).attempt fun result hresult => ?_
    cases result with
    | ok m =>
      refine .next fun _ => .pure ⟨⟨rfl, ?_⟩, hv⟩
      rintro _ ⟨⟩
      exact hresult m rfl
    | error e =>
      dsimp only
      split
      · exact .next fun _ => .next fun _ => .pure ⟨hinterpreted, hv⟩
      · exact .next fun _ => .pure ⟨hinterpreted, hv⟩

/-- Tools that compile layouts as the compiler does, if they do. -/
def Toolchain.Honest (t : Toolchain) : Prop :=
  ∀ l c p, t.compile l c = .ok p → Program.compile l c = .ok p

theorem Toolchain.standard_honest : standard.Honest := by
  intro l c p h
  simp only [standard, compileNative] at h
  cases hcompile : Program.compile l c with
  | ok p' => simpa [hcompile] using h
  | error e => cases e <;> simp [hcompile] at h

theorem BuiltFor.serves {c : Codec} {o : Options} {p : Port} (h : c.BuiltFor o p)
    (ho : o.toolchain.Honest)
    (hsize : Program.Target.codeSize ⟨.plan p, Program.hostConvention⟩ < 2 ^ 31) : c.Serves p where
  layout := h.layout
  native m hm := ⟨ho _ _ _ (h.native m hm).1, (h.native m hm).2, hsize⟩

structure Alike (c d : Codec) : Prop where
  storageSize : c.layout.storageSize = d.layout.storageSize
  maxTextSize : c.layout.maxTextSize = d.layout.maxTextSize
  read : ∀ state controller control,
    c.read state controller control = d.read state controller control
  write : ∀ state controller control v,
    c.write state controller control v = d.write state controller control v
  serialize : ∀ state out, c.serialize state out = d.serialize state out
  deserialize :
    ∀ state line, line.length < 2 ^ 63 → c.deserialize state line = d.deserialize state line

theorem alike_of_engine_eq {c d : Codec} (hl : c.layout = d.layout) (he : c.engine = d.engine) :
    c.Alike d := by
  have hstate : c.checkState = d.checkState := by rw [checkState, checkState, hl]
  have htext : c.checkText = d.checkText := by
    funext start
    rw [checkText, checkText, hl]
  constructor
  case storageSize => rw [hl]
  case maxTextSize => rw [hl]
  case read => exact fun st k i => by rw [read, read, readIn, readIn, hstate, he]
  case write => exact fun st k i v => by rw [write, write, writeIn, writeIn, hstate, he]
  case serialize =>
    exact fun st out => by rw [serialize, serialize, serializeIn, serializeIn, hstate, htext, he]
  case deserialize =>
    exact fun st line _ => by
      rw [deserialize, deserialize, deserializeIn, deserializeIn, hstate, he]

/-- A port has one layout and one code, so codecs of the port that are served alike are alike. -/
theorem BuiltFor.engine_eq {c d : Codec} {o o' : Options} {p : Port} (hc : c.BuiltFor o p)
    (hd : d.BuiltFor o' p) (ho : o.toolchain.Honest) (ho' : o'.toolchain.Honest)
    (h : c.native.isSome = d.native.isSome) : c.engine = d.engine := by
  cases hm : c.native with
  | none =>
    have hn : d.native = none := by simpa [hm] using h.symm
    rw [engine_of_native_eq_none hm, engine_of_native_eq_none hn, hc.layout, hd.layout]
  | some m =>
    obtain ⟨n, hn⟩ : ∃ n, d.native = some n := Option.isSome_iff_exists.1 (by rw [← h, hm]; rfl)
    obtain ⟨hcompile, hload⟩ := hc.native m hm
    obtain ⟨hcompile', hload'⟩ := hd.native n hn
    have hprogram : m.program = n.program :=
      Except.ok.inj ((ho _ _ _ hcompile).symm.trans (ho' _ _ _ hcompile'))
    have hsame : m = n := Except.ok.inj (hload.symm.trans (hprogram ▸ hload'))
    rw [engine, engine, hm, hn, hsame]

/-- Codecs of one layout refuse a state that is too short in the same way, whatever was asked. -/
theorem refusals_eq {α β : Type} {c d : Codec} {st out : Bytes} (hl : c.layout = d.layout)
    (h : st.length < c.layout.storageSize) (next next' : Unit → BufferWork α)
    (answer : α × Buffers → Except BufferFault β) :
    ((c.checkState >>= next).result ⟨st, out⟩ >>= answer) =
      ((d.checkState >>= next').result ⟨st, out⟩ >>= answer) := by
  rw [result_of_stop (checkState_bind_short next h),
    result_of_stop (checkState_bind_short next' (hl ▸ h)), hl]

/-- Codecs of one port are alike: with enough room they do what the layout says, and with too little
they refuse with the same words. -/
theorem Serves.alike {c d : Codec} {p : Port} (hc : c.Serves p) (hd : d.Serves p)
    (hv : p.validate = .ok ()) : c.Alike d := by
  have hvalid := (Port.validate_ok_iff p).1 hv
  have hl : c.layout = d.layout := hc.layout.trans hd.layout.symm
  have hec := hc.computes hvalid
  have hed := hd.computes hvalid
  constructor
  case storageSize => rw [hl]
  case maxTextSize => rw [hl]
  case read =>
    intro st k i
    rcases lt_or_ge st.length c.layout.storageSize with hs | hs
    · exact refusals_eq hl hs _ _ _
    · rw [read_eq hec hs, read_eq hed (hl ▸ hs), hl]
  case write =>
    intro st k i v
    rcases lt_or_ge st.length c.layout.storageSize with hs | hs
    · exact refusals_eq hl hs _ _ _
    · rw [write_eq hec hs, write_eq hed (hl ▸ hs), hl]
  case serialize =>
    intro st out
    rcases lt_or_ge st.length c.layout.storageSize with hs | hs
    · exact refusals_eq hl hs _ _ _
    rcases lt_or_ge out.length c.layout.maxTextSize with hroom | hroom
    · rw [serialize, serialize, result_of_stop (serializeIn_short hs hroom),
        result_of_stop (serializeIn_short (hl ▸ hs) (hl ▸ hroom)), hl]
    · rw [serialize_eq hec hs hroom, serialize_eq hed (hl ▸ hs) (hl ▸ hroom), hl]
  case deserialize =>
    intro st line hline
    rcases lt_or_ge st.length c.layout.storageSize with hs | hs
    · exact refusals_eq hl hs _ _ _
    · rw [deserialize_eq hec hs hline, deserialize_eq hed (hl ▸ hs) hline, hl]

def running (p : Port) (m : Program.Loaded) : Codec :=
  { port := p, layout := .plan p, backend := .native, native := some m }

/-- Unless something else is asked for, ports get their compiled code. -/
theorem start_build_native {p : Port} {m : Program.Loaded} (hm : m.CodeOf p)
    (hv : p.validate = .ok ()) (w : Workspace) :
    ∃ w', (build {} p).start w = (.ok (running p m), w') := by
  have hcompile : Toolchain.standard.compile (.plan p) Program.hostConvention = .ok m.program := by
    simp only [Toolchain.standard, compileNative, hm.compiled]
  have hnative : buildNative {} (.plan p) = Pure.pure m := by
    simp only [buildNative, hcompile, Session.lift, pure_bind, hm.loaded]
    rfl
  unfold build
  dsimp only
  rw [hv, hnative]
  exact ⟨_, rfl⟩

end Codec

namespace Registry

inductive Request
  | get (p : Port)
  | close

/-- What came of it. -/
inductive Event
  | got (p : Port) (held : Held)
  | refused (p : Port) (error : CodecError)
  | closed

/-- Serves one request. A user whose port is refused goes on with the registry that there was. -/
def serve (r : Registry) (w : Workspace) : Request → Event × Registry
  | .get p =>
    match ((r.get p).start w).1 with
    | .ok (held, r') => (.got p held, r')
    | .error e => (.refused p e, r)
  | .close => (.closed, r.close)

/-- Requests one after the other. Each finds a workspace of its own, so that anything may have
happened to the files meanwhile. -/
inductive Run : Registry → List Event → Registry → Prop
  | nil (r : Registry) : Run r [] r
  | cons {r r' r'' : Registry} {e : Event} {es : List Event} (w : Workspace) (q : Request)
      (first : r.serve w q = (e, r')) (rest : Run r' es r'') : Run r (e :: es) r''

theorem run_append_iff {r r'' : Registry} {es fs : List Event} :
    Run r (es ++ fs) r'' ↔ ∃ r', Run r es r' ∧ Run r' fs r'' := by
  induction es generalizing r with
  | nil =>
    refine ⟨fun h => ⟨r, .nil r, h⟩, ?_⟩
    rintro ⟨_, ⟨⟩, h⟩
    exact h
  | cons e es ih =>
    constructor
    · rintro (_ | ⟨w, q, first, rest⟩)
      obtain ⟨r', hes, hfs⟩ := ih.1 rest
      exact ⟨r', .cons w q first hes, hfs⟩
    · rintro ⟨r', _ | ⟨w, q, first, rest⟩, hfs⟩
      exact .cons w q first (ih.2 ⟨r', rest, hfs⟩)

/-- The ports that got a codec since the last time that the registry was closed, after those of
`earlier`. -/
def obtained (earlier : List Port) : List Event → List Port
  | [] => earlier
  | .got p _ :: es => obtained (p :: earlier) es
  | .refused _ _ :: es => obtained earlier es
  | .closed :: es => obtained [] es

variable {r r' : Registry} {p : Port} {w : Workspace} {held : Held} {e : Event} {es : List Event}

def hold (r : Registry) (p : Port) (c : Codec) : Registry :=
  { r with codecs := ((Layout.plan p).fingerprint, ⟨r.built, c⟩) :: r.codecs, built := r.built + 1 }

theorem start_get (r : Registry) (p : Port) (w : Workspace) : (r.get p).start w =
    match p.validate with
    | .error e => (.error (.invalid e), w)
    | .ok () =>
      match r.find? (Layout.plan p).fingerprint with
      | some held => (.ok (held, r), w)
      | none =>
        match (Codec.build r.options p).start w with
        | (.ok c, w') => (.ok (⟨r.built, c⟩, r.hold p c), w')
        | (.error e, w') => (.error e, w') := by
  unfold get
  cases p.validate with
  | error e => rfl
  | ok =>
    simp only [Session.lift, pure_bind]
    cases r.find? (Layout.plan p).fingerprint with
    | some held => rfl
    | none =>
      dsimp only
      rw [Session.start_bind]
      cases (Codec.build r.options p).start w with
      | mk result w' => cases result <;> rfl

/-- All that a request can do. -/
theorem serve_cases {q : Request} (h : r.serve w q = (e, r')) :
    (∃ p held, e = .got p held ∧ r.find? (Layout.plan p).fingerprint = some held ∧ r' = r) ∨
    (∃ p c, e = .got p ⟨r.built, c⟩ ∧ r.find? (Layout.plan p).fingerprint = none ∧
      c.BuiltFor r.options p ∧ r' = r.hold p c) ∨
    (∃ p error, e = .refused p error ∧ r' = r) ∨ (e = .closed ∧ r' = r.close) := by
  cases q with
  | close =>
    cases h
    exact .inr (.inr (.inr ⟨rfl, rfl⟩))
  | get p =>
    rw [serve, start_get] at h
    cases hv : p.validate with
    | error e =>
      rw [hv] at h
      cases h
      exact .inr (.inr (.inl ⟨_, _, rfl, rfl⟩))
    | ok =>
      rw [hv] at h
      cases hf : r.find? (Layout.plan p).fingerprint with
      | some held =>
        rw [hf] at h
        cases h
        exact .inl ⟨_, _, rfl, hf, rfl⟩
      | none =>
        rw [hf] at h
        cases hb : (Codec.build r.options p).start w with
        | mk result w' =>
          rw [hb] at h
          cases result with
          | ok c =>
            cases h
            exact .inr (.inl ⟨_, _, rfl, hf, (Codec.build_yields _ _ hb).1, rfl⟩)
          | error e =>
            cases h
            exact .inr (.inr (.inl ⟨_, _, rfl, rfl⟩))

theorem mem_of_find? {f : Bytes} (h : r.find? f = some held) : (f, held) ∈ r.codecs := by
  obtain ⟨x, hx, rfl⟩ := Option.map_eq_some_iff.1 h
  have hkey : x.1 = f := by simpa using List.find?_some hx
  rw [← hkey]
  exact List.mem_of_find?_eq_some hx

theorem not_mem_of_find? {f : Bytes} (h : r.find? f = none) : f ∉ r.codecs.map (·.1) := by
  rintro hmem
  obtain ⟨x, hx, rfl⟩ := List.mem_map.1 hmem
  have hnone := List.find?_eq_none.1 (Option.map_eq_none_iff.1 h) x hx
  simp at hnone

/-- What holds of the codecs of a registry at all times: none is held under two fingerprints or
shares one with another, and each was built for some port that had been asked for. -/
structure Sound (o : Codec.Options) (asked : Port → Prop) (r : Registry) : Prop where
  options : r.options = o
  keys : (r.codecs.map (·.1)).Nodup
  numbers : (r.codecs.map (·.2.number)).Nodup
  below : ∀ x ∈ r.codecs, x.2.number < r.built
  built : ∀ x ∈ r.codecs, ∃ p, asked p ∧ x.1 = (Layout.plan p).fingerprint ∧ x.2.codec.BuiltFor o p

section Invariant

variable {o : Codec.Options} {asked : Port → Prop} {q : Request}

theorem sound_new : Sound o asked { options := o } :=
  ⟨rfl, List.nodup_nil, List.nodup_nil, by simp, by simp⟩

theorem Sound.hold {c : Codec} (h : Sound o asked r) (hp : asked p)
    (hfind : r.find? (Layout.plan p).fingerprint = none) (hc : c.BuiltFor o p) :
    Sound o asked (r.hold p c) where
  options := h.options
  keys := List.nodup_cons.2 ⟨not_mem_of_find? hfind, h.keys⟩
  numbers := by
    refine List.nodup_cons.2 ⟨fun hmem => ?_, h.numbers⟩
    obtain ⟨x, hx, hnumber⟩ := List.mem_map.1 hmem
    exact (h.below x hx).ne hnumber
  below := by
    intro x hx
    rcases List.mem_cons.1 hx with rfl | hx
    · exact Nat.lt_succ_self _
    · exact Nat.lt_succ_of_lt (h.below x hx)
  built := by
    intro x hx
    rcases List.mem_cons.1 hx with rfl | hx
    · exact ⟨p, hp, rfl, hc⟩
    · exact h.built x hx

theorem Sound.serve (h : Sound o asked r) (hs : r.serve w q = (e, r'))
    (hasked : ∀ p a, e = .got p a → asked p) : Sound o asked r' := by
  obtain ⟨p, a, -, -, rfl⟩ | ⟨p, c, rfl, hfind, hc, rfl⟩ | ⟨p, error, -, rfl⟩ | ⟨-, rfl⟩ :=
    serve_cases hs
  · exact h
  · exact h.hold (hasked _ _ rfl) hfind (h.options ▸ hc)
  · exact h
  · exact ⟨h.options, List.nodup_nil, List.nodup_nil, by simp [close], by simp [close]⟩

theorem Sound.run (h : Sound o asked r) (hr : Run r es r')
    (hasked : ∀ p a, .got p a ∈ es → asked p) : Sound o asked r' := by
  induction hr with
  | nil => exact h
  | cons w q first rest ih =>
    refine ih (h.serve first fun p a he => hasked p a (by simp [he])) fun p a hmem => ?_
    exact hasked p a (List.mem_cons_of_mem _ hmem)

end Invariant

/-- Who gets a codec gets one that is held from then on. -/
theorem mem_of_got {q : Request} {a : Held} (h : r.serve w q = (.got p a, r')) :
    ((Layout.plan p).fingerprint, a) ∈ r'.codecs := by
  obtain ⟨_, _, he, hfind, rfl⟩ | ⟨_, c, he, -, -, rfl⟩ | ⟨_, _, he, -⟩ | ⟨he, -⟩ := serve_cases h
  · cases he
    exact mem_of_find? hfind
  · cases he
    exact List.mem_cons_self
  · cases he
  · cases he

section Growth

theorem codecs_subset_serve {q : Request} (h : r.serve w q = (e, r')) (he : e ≠ .closed) :
    r.codecs ⊆ r'.codecs := by
  obtain ⟨_, _, -, -, rfl⟩ | ⟨_, c, -, -, -, rfl⟩ | ⟨_, _, -, rfl⟩ | ⟨rfl, -⟩ := serve_cases h
  · exact fun _ hx => hx
  · exact List.subset_cons_self _ _
  · exact fun _ hx => hx
  · exact absurd rfl he

theorem Run.codecs_subset (h : Run r es r') (hes : .closed ∉ es) : r.codecs ⊆ r'.codecs := by
  induction h with
  | nil => exact fun _ hx => hx
  | cons w q first rest ih =>
    rw [List.mem_cons, not_or] at hes
    exact List.Subset.trans (codecs_subset_serve first fun he => hes.1 he.symm) (ih hes.2)

theorem built_le_serve {q : Request} (h : r.serve w q = (e, r')) : r.built ≤ r'.built := by
  obtain ⟨_, _, -, -, rfl⟩ | ⟨_, c, -, -, -, rfl⟩ | ⟨_, _, -, rfl⟩ | ⟨-, rfl⟩ := serve_cases h
  · exact le_rfl
  · exact Nat.le_succ _
  · exact le_rfl
  · exact le_rfl

theorem Run.built_le (h : Run r es r') : r.built ≤ r'.built := by
  induction h with
  | nil => exact le_rfl
  | cons w q first rest ih => exact (built_le_serve first).trans ih

/-- Codecs that were handed out have numbers that are used up. -/
theorem Run.number_lt {o : Codec.Options} {asked : Port → Prop} (h : Run r es r')
    (hr : Sound o asked r) (hasked : ∀ p a, .got p a ∈ es → asked p) {a : Held}
    (ha : .got p a ∈ es) : a.number < r'.built := by
  induction h with
  | nil => cases ha
  | @cons r r' r'' e es w q first rest ih =>
    have hr' := hr.serve first fun p a he => hasked p a (by simp [he])
    rcases List.mem_cons.1 ha with rfl | ha
    · exact (hr'.below _ (mem_of_got first)).trans_le rest.built_le
    · exact ih hr' (fun p a hmem => hasked p a (List.mem_cons_of_mem _ hmem)) ha

/-- A registry whose codecs all have numbers from `n` on keeps handing out such codecs. -/
theorem Run.le_number {n : ℕ} (h : Run r es r') (hn : n ≤ r.built)
    (hr : ∀ x ∈ r.codecs, n ≤ x.2.number) {a : Held} (ha : .got p a ∈ es) : n ≤ a.number := by
  induction h with
  | nil => cases ha
  | @cons r r' r'' e es w q first rest ih =>
    have hr' : ∀ x ∈ r'.codecs, n ≤ x.2.number := by
      obtain ⟨_, _, -, -, rfl⟩ | ⟨_, c, -, -, -, rfl⟩ | ⟨_, _, -, rfl⟩ | ⟨-, rfl⟩ :=
        serve_cases first
      · exact hr
      · rintro x (_ | ⟨_, hx⟩)
        · exact hn
        · exact hr x hx
      · exact hr
      · simp [close]
    rcases List.mem_cons.1 ha with rfl | ha
    · exact hr' _ (mem_of_got first)
    · exact ih (hn.trans (built_le_serve first)) hr' ha

end Growth

section Counting

def prints (ports : List Port) : List Bytes := ports.map fun p => (Layout.plan p).fingerprint

theorem keys_run {earlier : List Port} (h : Run r es r')
    (hr : ∀ f, f ∈ r.codecs.map (·.1) ↔ f ∈ prints earlier) (f : Bytes) :
    f ∈ r'.codecs.map (·.1) ↔ f ∈ prints (obtained earlier es) := by
  induction h generalizing earlier with
  | nil => exact hr f
  | @cons r r' r'' e es w q first rest ih =>
    obtain ⟨p, a, rfl, hfind, rfl⟩ | ⟨p, c, rfl, -, -, rfl⟩ | ⟨p, error, rfl, rfl⟩ | ⟨rfl, rfl⟩ :=
      serve_cases first
    · refine ih fun g => ?_
      have hmem : (Layout.plan p).fingerprint ∈ prints earlier :=
        (hr _).1 (List.mem_map_of_mem (mem_of_find? hfind))
      rw [hr g, prints, prints, List.map_cons, List.mem_cons]
      exact ⟨.inr, fun hg => hg.elim (fun hg => hg ▸ hmem) id⟩
    · refine ih fun g => ?_
      have hg := hr g
      simp only [prints] at hg
      simp only [hold, prints, List.map_cons, List.mem_cons, hg]
    · exact ih hr
    · exact ih fun g => by simp [close, prints]

theorem mem_of_obtained {earlier : List Port} (h : p ∈ obtained earlier es) :
    p ∈ earlier ∨ ∃ a, .got p a ∈ es := by
  induction es generalizing earlier with
  | nil => exact .inl h
  | cons e es ih =>
    cases e with
    | got p' a =>
      rcases ih h with hmem | ⟨b, hb⟩
      · rcases List.mem_cons.1 hmem with rfl | hmem
        · exact .inr ⟨a, List.mem_cons_self⟩
        · exact .inl hmem
      · exact .inr ⟨b, List.mem_cons_of_mem _ hb⟩
    | refused p' error =>
      rcases ih h with hmem | ⟨b, hb⟩
      · exact .inl hmem
      · exact .inr ⟨b, List.mem_cons_of_mem _ hb⟩
    | closed =>
      rcases ih h with hmem | ⟨b, hb⟩
      · cases hmem
      · exact .inr ⟨b, List.mem_cons_of_mem _ hb⟩

end Counting

/-- A registry after some requests, as its user sees it. -/
structure Transparent (o : Codec.Options) (es : List Event) (r : Registry) : Prop where
  /-- A codec is as if it had been built for the port that got it, and cannot be told from one that
  is. If one of them runs compiled code and the other does not, the code has to be within the reach
  of its jumps. -/
  fresh : ∀ p a, .got p a ∈ es → a.codec.BuiltFor o p ∧
    ∀ o' w c w', (Codec.build o' p).start w = (.ok c, w') →
      o.toolchain.Honest → o'.toolchain.Honest →
      (a.codec.native.isSome = c.native.isSome ∨
        Program.Target.codeSize ⟨.plan p, Program.hostConvention⟩ < 2 ^ 31) → a.codec.Alike c
  /-- Until the registry is closed, ports get the same codec exactly if they have the same
  layout. -/
  shared : ∀ before p a between q b after,
    es = before ++ .got p a :: (between ++ .got q b :: after) → .closed ∉ between →
      (a = b ↔ Layout.plan p = Layout.plan q) ∧
        (a.number = b.number ↔ Layout.plan p = Layout.plan q)
  /-- A refused port changes nothing. -/
  refused : ∀ before p error, es = before ++ [.refused p error] → Run { options := o } before r
  /-- The layouts held are those of the ports that got a codec since the registry was last
  closed. -/
  size : r.size = ((obtained [] es).map Layout.plan).toFinset.card
  /-- No codec that was handed out before the registry was closed is handed out after. -/
  released : ∀ before between q b after, es = before ++ .closed :: (between ++ .got q b :: after) →
    ∀ p a, .got p a ∈ before → a.number ≠ b.number

section Whole

variable {o : Codec.Options}

def Served (es : List Event) (p : Port) : Prop := ∃ a, .got p a ∈ es

/-- Ports of different layouts that got a codec have different fingerprints. -/
def Distinguished (es : List Event) : Prop :=
  ∀ p a q b, .got p a ∈ es → .got q b ∈ es →
    (Layout.plan p).fingerprint = (Layout.plan q).fingerprint → Layout.plan p = Layout.plan q

/-- A run can be taken apart at each of its requests. -/
theorem Run.split {before after : List Event} (h : Run r (before ++ e :: after) r') :
    ∃ r₁ w q r₂, Run r before r₁ ∧ r₁.serve w q = (e, r₂) ∧ Run r₂ after r' := by
  obtain ⟨r₁, hbefore, _ | ⟨w, q, first, rest⟩⟩ := run_append_iff.1 h
  exact ⟨r₁, w, q, _, hbefore, first, rest⟩

theorem Sound.builtFor {es : List Event} {a : Held} (h : Sound o (Served es) r)
    (hes : Distinguished es) (hgot : .got p a ∈ es)
    (hmem : ((Layout.plan p).fingerprint, a) ∈ r.codecs) : a.codec.BuiltFor o p := by
  obtain ⟨p', ⟨b, hb⟩, hprint, hbuilt⟩ := h.built _ hmem
  have hplan : Layout.plan p = Layout.plan p' := hes _ _ _ _ hgot hb hprint
  exact ⟨hbuilt.layout.trans hplan.symm, fun m hm => hplan ▸ hbuilt.native m hm⟩

theorem Run.sound {before after : List Event} (h : Run { options := o } before r)
    (hes : before ++ after = es) : Sound o (Served es) r :=
  sound_new.run h fun _ a hmem => ⟨a, hes ▸ List.mem_append_left _ hmem⟩

theorem Run.fresh (h : Run { options := o } es r) (hes : Distinguished es) {a : Held}
    (hgot : .got p a ∈ es) : a.codec.BuiltFor o p := by
  obtain ⟨before, after, rfl⟩ := List.append_of_mem hgot
  obtain ⟨r₁, w, q, r₂, hbefore, hserve, -⟩ := h.split
  have hsound : Sound o (Served (before ++ .got p a :: after)) r₂ :=
    (hbefore.sound rfl).serve hserve fun _ a' he => ⟨a', by simp [he]⟩
  exact hsound.builtFor hes hgot (mem_of_got hserve)

theorem Run.shared {before between after : List Event} {q : Port} {a b : Held}
    (h : Run { options := o } es r) (hes : Distinguished es)
    (hsplit : es = before ++ .got p a :: (between ++ .got q b :: after))
    (hbetween : .closed ∉ between) :
    (a = b ↔ Layout.plan p = Layout.plan q) ∧
      (a.number = b.number ↔ Layout.plan p = Layout.plan q) := by
  have hp : .got p a ∈ es := by simp [hsplit]
  have hq : .got q b ∈ es := by simp [hsplit]
  have hrun := hsplit ▸ h
  obtain ⟨r₁, w, x, r₂, hbefore, hfirst, hrest⟩ := hrun.split
  obtain ⟨r₃, w', y, r₄, hmiddle, hsecond, -⟩ := hrest.split
  have hsound₂ : Sound o (Served es) r₂ :=
    (hbefore.sound hsplit.symm).serve hfirst fun _ a' he => ⟨a', he ▸ hp⟩
  have hsound₃ : Sound o (Served es) r₃ :=
    hsound₂.run hmiddle fun _ a' hmem => ⟨a', by simp [hsplit, hmem]⟩
  have hsound : Sound o (Served es) r₄ := hsound₃.serve hsecond fun _ b' he => ⟨b', he ▸ hq⟩
  have ha : ((Layout.plan p).fingerprint, a) ∈ r₄.codecs :=
    codecs_subset_serve hsecond (by simp) (hmiddle.codecs_subset hbetween (mem_of_got hfirst))
  have hb : ((Layout.plan q).fingerprint, b) ∈ r₄.codecs := mem_of_got hsecond
  have hplan (hn : a.number = b.number) : Layout.plan p = Layout.plan q := by
    have hpair := List.inj_on_of_nodup_map hsound.numbers ha hb hn
    exact hes p a q b hp hq (congrArg Prod.fst hpair)
  have hsame (hl : Layout.plan p = Layout.plan q) : a = b := by
    have hpair := List.inj_on_of_nodup_map hsound.keys ha hb (congrArg Layout.fingerprint hl)
    exact congrArg Prod.snd hpair
  exact ⟨⟨fun hab => hplan (congrArg Held.number hab), hsame⟩,
    hplan, fun hl => congrArg Held.number (hsame hl)⟩

theorem Run.released {before between after : List Event} {q : Port} {a b : Held}
    (h : Run { options := o } es r)
    (hsplit : es = before ++ .closed :: (between ++ .got q b :: after)) (ha : .got p a ∈ before) :
    a.number ≠ b.number := by
  subst hsplit
  obtain ⟨r₁, w, q', r₂, hbefore, hclose, hrest⟩ := h.split
  obtain rfl : r₂ = r₁.close := by
    obtain ⟨_, _, he, -⟩ | ⟨_, _, he, -⟩ | ⟨_, _, he, -⟩ | ⟨-, he⟩ := serve_cases hclose
    · cases he
    · cases he
    · cases he
    · exact he
  have hnew : Sound o (Served before) { options := o } := sound_new
  have hlt : a.number < r₁.built := hbefore.number_lt hnew (fun _ a' hmem => ⟨a', hmem⟩) ha
  have hq : .got q b ∈ between ++ .got q b :: after := by simp
  have hle : r₁.built ≤ b.number := hrest.le_number le_rfl (by simp [close]) hq
  omega

theorem Run.refused {before : List Event} {error : CodecError} (h : Run { options := o } es r)
    (hsplit : es = before ++ [.refused p error]) : Run { options := o } before r := by
  subst hsplit
  obtain ⟨r₁, w, q, r₂, hbefore, hserve, ⟨⟩⟩ := h.split
  obtain ⟨_, _, he, -⟩ | ⟨_, _, he, -⟩ | ⟨_, _, -, rfl⟩ | ⟨he, -⟩ := serve_cases hserve
  · cases he
  · cases he
  · exact hbefore
  · cases he

theorem Run.size (h : Run { options := o } es r) (hes : Distinguished es) :
    r.size = ((obtained [] es).map Layout.plan).toFinset.card := by
  have hkeys : (r.codecs.map (·.1)).toFinset =
      ((obtained [] es).map Layout.plan).toFinset.image Layout.fingerprint := by
    ext f
    have hmem : f ∈ r.codecs.map (·.1) ↔ f ∈ prints (obtained [] es) :=
      keys_run h (by simp [prints]) f
    rw [List.mem_toFinset, hmem, Finset.mem_image]
    simp [prints]
  have hinj : Set.InjOn Layout.fingerprint
      (((obtained [] es).map Layout.plan).toFinset : Set Layout) := by
    intro l hl l' hl' hprint
    obtain ⟨p, hp, rfl⟩ := List.mem_map.1 (List.mem_toFinset.1 hl)
    obtain ⟨q, hq, rfl⟩ := List.mem_map.1 (List.mem_toFinset.1 hl')
    obtain hp | ⟨a, ha⟩ := mem_of_obtained hp
    · cases hp
    obtain hq | ⟨b, hb⟩ := mem_of_obtained hq
    · cases hq
    exact hes p a q b ha hb hprint
  have hsound : Sound o (Served es) r := h.sound (List.append_nil es)
  calc r.size = (r.codecs.map (·.1)).length := by rw [List.length_map]; rfl
    _ = (r.codecs.map (·.1)).toFinset.card := (List.toFinset_card_of_nodup hsound.keys).symm
    _ = ((obtained [] es).map Layout.plan).toFinset.card := by
      rw [hkeys, Finset.card_image_of_injOn hinj]

end Whole

theorem serve_get_held {a : Held} (hv : p.validate = .ok ())
    (h : r.find? (Layout.plan p).fingerprint = some a) : r.serve w (.get p) = (.got p a, r) := by
  rw [serve, start_get, hv, h]

theorem serve_get_built {c : Codec} {w' : Workspace}
    (hbuild : (Codec.build r.options p).start w = (.ok c, w')) (hv : p.validate = .ok ())
    (h : r.find? (Layout.plan p).fingerprint = none) :
    r.serve w (.get p) = (.got p ⟨r.built, c⟩, r.hold p c) := by
  rw [serve, start_get, hv, h, hbuild]

section Example

open Codec (running)
open Layout (twoPads renamedPads digitPort)

def unnamed : Port := { twoPads with name := [] }

variable {m n : Program.Loaded}

/-- Two ports share a codec, a third has its own and a fourth is refused; after closing, the second
gets a new one. All of them run compiled code. -/
def padEvents (m n : Program.Loaded) : List Event :=
  [.got twoPads ⟨0, running twoPads m⟩, .refused unnamed (.invalid ⟨"name", .missing⟩),
    .got renamedPads ⟨0, running twoPads m⟩, .got digitPort ⟨1, running digitPort n⟩, .closed,
    .got renamedPads ⟨2, running renamedPads m⟩]

theorem twoPads_fingerprint_ne :
    (Layout.plan twoPads).fingerprint ≠ (Layout.plan digitPort).fingerprint := by
  decide +kernel

theorem renamedPads_plan : Layout.plan renamedPads = Layout.plan twoPads := by decide +kernel

theorem codeOf_renamedPads (hm : m.CodeOf twoPads) : m.CodeOf renamedPads := by
  obtain ⟨hcompiled, hloaded, hsize⟩ := hm
  rw [← renamedPads_plan] at hcompiled hloaded hsize
  exact ⟨hcompiled, hloaded, hsize⟩

theorem padEvents_run (hm : m.CodeOf twoPads) (hn : n.CodeOf digitPort) :
    ∃ r, Run {} (padEvents m n) r := by
  have hrefused (r : Registry) :
      r.serve {} (.get unnamed) = (.refused unnamed (.invalid ⟨"name", .missing⟩), r) := by
    rw [serve, start_get]
    rfl
  obtain ⟨w₁, hfirst⟩ := Codec.start_build_native hm rfl {}
  obtain ⟨w₂, hsecond⟩ := Codec.start_build_native hn rfl {}
  obtain ⟨w₃, hthird⟩ := Codec.start_build_native (codeOf_renamedPads hm) rfl {}
  refine ⟨_, .cons {} (.get twoPads) (serve_get_built hfirst rfl rfl)
    (.cons {} (.get unnamed) (hrefused _) (.cons {} (.get renamedPads) (serve_get_held rfl ?_)
      (.cons {} (.get digitPort) (serve_get_built hsecond rfl ?_) (.cons {} .close rfl
        (.cons {} (.get renamedPads) (serve_get_built hthird rfl rfl) (.nil _))))))⟩
  · rw [renamedPads_plan]
    simp [find?, hold]
  · simp [find?, hold, twoPads_fingerprint_ne]

theorem padEvents_distinguished (m n : Program.Loaded) : Distinguished (padEvents m n) := by
  have hplan (p : Port) (a : Held) (h : .got p a ∈ padEvents m n) :
      Layout.plan p = Layout.plan twoPads ∨ Layout.plan p = Layout.plan digitPort := by
    simp only [padEvents, List.mem_cons, Event.got.injEq, List.not_mem_nil, reduceCtorEq, false_or,
      or_false] at h
    rcases h with ⟨rfl, -⟩ | ⟨rfl, -⟩ | ⟨rfl, -⟩ | ⟨rfl, -⟩
    · exact .inl rfl
    · exact .inl renamedPads_plan
    · exact .inr rfl
    · exact .inl renamedPads_plan
  intro p a q b hp hq hprint
  rcases hplan p a hp with hp | hp <;> rcases hplan q b hq with hq | hq <;> rw [hp, hq] at hprint ⊢
  · exact absurd hprint twoPads_fingerprint_ne
  · exact absurd hprint.symm twoPads_fingerprint_ne

end Example

end Registry
end PortCodec
