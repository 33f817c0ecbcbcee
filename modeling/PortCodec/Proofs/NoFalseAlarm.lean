import PortCodec.Codec.Verification
import PortCodec.Proofs.LoadedCalls
import PortCodec.Proofs.RoundTrip

/-! Verification raises no false alarm. Two codecs that answer as the interpreter does are never
told apart, whatever numbers are drawn. All that can be reported of them is a state that its line
does not give back, and that state holds a digit button directly behind an axis. -/

namespace PortCodec

namespace Layout

variable {p : Port} {l : Layout} {s t : Bytes}

theorem canCanonicalize_plan (hs : s.length = (plan p).storageSize) :
    (plan p).canCanonicalize s = true := by
  rw [canCanonicalize, hs, plan_storageSize, Bool.or_eq_true, decide_eq_true_iff,
    decide_eq_true_iff]
  omega

theorem Canonical.canonicalize_eq (hv : p.Valid) (hs : (plan p).Canonical s) :
    (plan p).canonicalize s = s :=
  canonical_ext hv (canonical_canonicalize hs.length) hs (map_stepValue_canonicalize hv s)

/-- A canonical state comes back from its line unless a button merges into an axis. -/
theorem Canonical.comes_back_iff (hv : p.Valid) (hc : p.controllers ≠ [])
    (hs : (plan p).Canonical s) (ht : t.length = (plan p).storageSize) :
    (plan p).deserialize t ((plan p).serialize s) = ((((plan p).serialize s).length : ℤ), s) ↔
      ¬Line.Merged s (plan p).program := by
  rw [← parseSteps_serialize_iff hv, ← deserialize_serialize_iff_parseSteps hv hc hs.length ht,
    hs.canonicalize_eq hv]

theorem merged_empty (hc : p.controllers = []) (s : Bytes) : ¬Line.Merged s (plan p).program := by
  have hbody : body p = [] := by simp [body, hc, planControllers]
  rw [plan_program, hbody, Line.merged_concat_end (lastStep_isEnd p)]
  rintro ⟨a, o, m, c, hinfix, -⟩
  cases List.infix_nil.1 hinfix

/-- A port has controllers, and a state does not come back, exactly if a button merges into an
axis. -/
theorem Canonical.lost_iff (hv : p.Valid) (hs : (plan p).Canonical s) {n : ℤ} {back : Bytes}
    (h : (plan p).deserialize (plan p).newState ((plan p).serialize s) = (n, back)) :
    0 < (plan p).controllers ∧ (n ≠ ((plan p).serialize s).length ∨ back ≠ s) ↔
      Line.Merged s (plan p).program := by
  by_cases hc : p.controllers = []
  · have hnone : (plan p).controllers = 0 := congrArg List.length hc
    exact iff_of_false (by omega) (merged_empty hc s)
  · have hpos : 0 < (plan p).controllers := List.length_pos_iff.2 hc
    rw [and_iff_right hpos, ← not_and_or, ← Prod.mk.injEq, ← h,
      hs.comes_back_iff hv hc (newState_length _), not_not]

/-- Reading overwrites all of a state. -/
theorem deserialize_newState (ht : t.length = l.storageSize) (line : Bytes) :
    l.deserialize t line = l.deserialize l.newState line := by
  rw [deserialize, deserialize, clearFirst_eq ht.ge, clearFirst_eq (newState_length l).ge,
    List.drop_of_length_le ht.le, List.drop_of_length_le (newState_length l).le]

theorem length_deserialize_newState (l : Layout) (line : Bytes) :
    (l.deserialize l.newState line).2.length = l.storageSize := by
  rw [length_deserialize, newState_length]

end Layout

namespace Line

variable {σ : Type} (source : Random.Source σ)

theorem length_corrupt_le (line : Bytes) (s : σ) :
    (corrupt source line s).1.length ≤ max 1 line.length := by
  unfold corrupt
  split_ifs
  · simp
  · exact le_max_left _ _

theorem length_corruptTimes_le (n : ℕ) (line : Bytes) (s : σ) :
    (corruptTimes source n line s).1.length ≤ max 1 line.length := by
  induction n generalizing line s with
  | zero => exact le_max_right _ _
  | succ n ih =>
    have hone := length_corrupt_le source line s
    have hrest := ih (corrupt source line s).1 (corrupt source line s).2
    exact hrest.trans (max_le (le_max_left _ _) hone)

/-- Damage makes only the empty line longer. -/
theorem length_mutate_le (line : Bytes) (s : σ) :
    (mutate source line s).1.length ≤ max 1 line.length := by
  unfold mutate
  dsimp only
  split_ifs
  · exact le_max_right _ _
  · exact (List.length_take_le' _ _).trans (le_max_right _ _)
  · exact length_corruptTimes_le source _ line _

end Line

/-- One subject answers as another on buffers of the layout's size, whatever they hold, and on lines
that are not longer than the longest one that the layout writes. -/
structure Subject.AnswersAs (s other : Subject (Except BufferFault)) : Prop where
  layout : s.layout = other.layout
  serialize : ∀ state out, state.length = other.layout.storageSize →
    out.length = other.layout.maxTextSize →
      s.operations.serialize state out = other.operations.serialize state out
  deserialize : ∀ state line, state.length = other.layout.storageSize →
    line.length ≤ max 1 other.layout.maxTextSize →
      s.operations.deserialize state line = other.operations.deserialize state line
  read : ∀ state k i, state.length = other.layout.storageSize →
    s.operations.read state k i = other.operations.read state k i
  write : ∀ state k i v, state.length = other.layout.storageSize →
    s.operations.write state k i v = other.operations.write state k i v

/-- A subject that is never stopped, and whose answers are those of a layout. -/
structure Subject.Computes (s : Subject (Except BufferFault)) (l : Layout) : Prop where
  layout : s.layout = l
  serialize : ∀ state out, state.length = l.storageSize → out.length = l.maxTextSize →
    s.operations.serialize state out = .ok ((l.serialize state).length,
      l.serialize state ++ out.drop (l.serialize state).length)
  deserialize : ∀ state line, state.length = l.storageSize → line.length ≤ max 1 l.maxTextSize →
    s.operations.deserialize state line = .ok (l.deserialize l.newState line)
  read : ∀ state (k i : Int64), state.length = l.storageSize →
    s.operations.read state k i = .ok (l.read state k.toInt i.toInt)
  write : ∀ state (k i : Int64) v, state.length = l.storageSize →
    s.operations.write state k i v = .ok (l.write state k.toInt i.toInt v)

def Codec.interpreter (p : Port) : Codec :=
  { port := p, layout := .plan p, backend := .interpreter }

theorem Codec.computes_subject {c : Codec} {q : Bytes → Prop} (he : c.engine.Computes c.layout q)
    (hq : ∀ line, line.length ≤ max 1 c.layout.maxTextSize → q line) :
    c.subject.Computes c.layout where
  layout := rfl
  serialize state out hs hout := Codec.serialize_eq he hs.ge hout.ge
  deserialize state line hs hline := by
    rw [← Layout.deserialize_newState hs]
    exact Codec.deserialize_eq he hs.ge (hq line hline)
  read state k i hs := Codec.read_eq he hs.ge k i
  write state k i v hs := Codec.write_eq he hs.ge k i v

theorem Codec.computes_interpreter {p : Port} (hv : p.Valid) :
    (interpreter p).subject.Computes (.plan p) :=
  computes_subject (c := interpreter p) (Layout.engine_computes hv) fun _ _ => trivial

theorem Subject.AnswersAs.computes {s other : Subject (Except BufferFault)} {l : Layout}
    (h : s.AnswersAs other) (ho : other.Computes l) : s.Computes l := by
  obtain rfl := ho.layout
  exact {
    layout := h.layout
    serialize := fun state out hs hout =>
      (h.serialize state out hs hout).trans (ho.serialize state out hs hout)
    deserialize := fun state line hs hline =>
      (h.deserialize state line hs hline).trans (ho.deserialize state line hs hline)
    read := fun state k i hs => (h.read state k i hs).trans (ho.read state k i hs)
    write := fun state k i v hs => (h.write state k i v hs).trans (ho.write state k i v hs) }

theorem Subject.Computes.answersAs {s other : Subject (Except BufferFault)} {l : Layout}
    (h : s.Computes l) (ho : other.Computes l) : s.AnswersAs other := by
  obtain rfl := ho.layout
  exact {
    layout := h.layout
    serialize := fun state out hs hout =>
      (h.serialize state out hs hout).trans (ho.serialize state out hs hout).symm
    deserialize := fun state line hs hline =>
      (h.deserialize state line hs hline).trans (ho.deserialize state line hs hline).symm
    read := fun state k i hs => (h.read state k i hs).trans (ho.read state k i hs).symm
    write := fun state k i v hs => (h.write state k i v hs).trans (ho.write state k i v hs).symm }

namespace Verification

variable {σ α β : Type}

abbrev Report := String × Bytes × Bytes × Bytes

/-- Work that is never stopped. It has a result with `q`, or it reports that a line does not give
its state back, and then `P` holds. -/
def Quiet (P : Prop) (q : α → Prop) (work : ExceptT Report (Except BufferFault) α) : Prop :=
  (∃ a, work.run = .ok (.ok a) ∧ q a) ∨
    ∃ (rest : String) (details : Bytes × Bytes × Bytes),
      work.run = .ok (.error ("round trip" ++ rest, details)) ∧ P

section Rules

variable {P : Prop} {q : α → Prop} {q' : β → Prop}

theorem Quiet.pure {a : α} (h : q a) : Quiet P q (Pure.pure a) := .inl ⟨a, rfl, h⟩

theorem Quiet.bind {work : ExceptT Report (Except BufferFault) α}
    {next : α → ExceptT Report (Except BufferFault) β} (h : Quiet P q work)
    (hnext : ∀ a, q a → Quiet P q' (next a)) : Quiet P q' (work >>= next) := by
  obtain ⟨a, hrun, ha⟩ | ⟨rest, details, hrun, hP⟩ := h
  · have heq : (work >>= next).run = (next a).run := by
      rw [ExceptT.run_bind, hrun]
      rfl
    rw [Quiet, heq]
    exact hnext a ha
  · refine .inr ⟨rest, details, ?_, hP⟩
    rw [ExceptT.run_bind, hrun]
    rfl

/-- An answer that is known is handed on. -/
theorem bind_answer {x : Except BufferFault α} {a : α} (h : x = .ok a)
    (next : α → ExceptT Report (Except BufferFault) β) : liftM x >>= next = next a := by
  subst h
  rfl

end Rules

section Steps

variable {p : Port} {s reference candidate : Subject (Except BufferFault)} {state buffer : Bytes}
  (source : Random.Source σ)

/-- What a round relies on: all buffers have the layout's sizes. -/
structure Sized (l : Layout) (r : Round σ) : Prop where
  reference : r.referenceState.length = l.storageSize
  candidate : r.candidateState.length = l.storageSize
  referenceText : r.referenceText.length = l.maxTextSize
  candidateText : r.candidateText.length = l.maxTextSize

theorem roundTrip_quiet (hv : p.Valid) (hs : s.Computes (.plan p))
    (hstate : (Layout.plan p).Canonical state)
    (hbuffer : buffer.length = (Layout.plan p).storageSize) :
    Quiet (Line.Merged state (Layout.plan p).program)
      (fun back => back.length = (Layout.plan p).storageSize ∧
        ¬Line.Merged state (Layout.plan p).program)
      (ExceptT.mk (roundTrip s state ((Layout.plan p).serialize state) buffer)) := by
  have hlength := Layout.length_deserialize_newState (.plan p) ((Layout.plan p).serialize state)
  have hline := (Layout.length_serialize_le (.plan p) state).trans (le_max_right 1 _)
  rw [roundTrip, hs.deserialize _ _ hbuffer hline, hs.layout]
  rcases hanswer : (Layout.plan p).deserialize (Layout.plan p).newState _ with ⟨n, back⟩
  rw [hanswer] at hlength
  rw [← hstate.lost_iff hv hanswer]
  change Quiet _ _ (ExceptT.mk (if _ then _ else _))
  simp only [Bool.and_eq_true, Bool.or_eq_true, decide_eq_true_iff]
  split_ifs with hlost
  · exact .inr ⟨s!" ({s.backend.name})", _, rfl, hlost⟩
  · exact .inl ⟨back, rfl, hlength, hlost⟩

/-- The line that was written to a text is found at its front. -/
theorem firstBytes_eq (line rest : Bytes) :
    (firstBytes (line ++ rest) line.length : Except BufferFault Bytes) = .ok line := by
  rw [firstBytes, if_pos (by simp), List.take_left]
  rfl

/-- One round keeps the sizes of the buffers. It has something to report exactly if a button merges
into an axis. -/
theorem round_quiet (hv : p.Valid) (hr : reference.Computes (.plan p))
    (hc : candidate.Computes (.plan p)) (hstate : (Layout.plan p).Canonical state) {r : Round σ}
    (hsized : Sized (.plan p) r) :
    Quiet (Line.Merged state (Layout.plan p).program)
      (fun r' => Sized (.plan p) r' ∧ ¬Line.Merged state (Layout.plan p).program)
      (round source reference candidate state r) := by
  obtain ⟨l, backend, operations⟩ := reference
  obtain ⟨l', backend', operations'⟩ := candidate
  obtain rfl : l = .plan p := hr.layout
  obtain rfl : l' = .plan p := hc.layout
  have hlong := Layout.length_serialize_le (.plan p) state
  have htext (text : Bytes) (h : text.length = (Layout.plan p).maxTextSize) :
      ((Layout.plan p).serialize state ++
        text.drop ((Layout.plan p).serialize state).length).length =
          (Layout.plan p).maxTextSize := by
    rw [List.length_append, List.length_drop]
    omega
  unfold round
  dsimp only
  rw [bind_answer (hr.serialize _ _ hstate.length hsized.referenceText),
    bind_answer (hc.serialize _ _ hstate.length hsized.candidateText)]
  dsimp only
  rw [bind_answer (firstBytes_eq _ _), bind_answer (firstBytes_eq _ _), if_neg (not_not.2 rfl)]
  apply (roundTrip_quiet hv hr hstate hsized.reference).bind
  rintro buffer ⟨hbuffer, -⟩
  apply (roundTrip_quiet hv hc hstate hbuffer).bind
  rintro buffer ⟨hbuffer, hback⟩
  -- the probe may be any line of that length: it is read over all that the buffers held
  have hprobe := Line.length_mutate_le source ((Layout.plan p).serialize state) r.random
  generalize Line.mutate source _ _ = mutated at hprobe
  obtain ⟨probe, random⟩ := mutated
  dsimp only at hprobe ⊢
  have hprobe := hprobe.trans (max_le_max_left 1 hlong)
  have hlength := Layout.length_deserialize_newState (.plan p) probe
  rw [bind_answer (hr.deserialize _ _ hbuffer hprobe),
    bind_answer (hc.deserialize _ _ hsized.candidate hprobe)]
  generalize (Layout.plan p).deserialize (Layout.plan p).newState probe = answer at hlength
  obtain ⟨n, back⟩ := answer
  dsimp only
  rw [if_neg (by simp)]
  split_ifs
  · exact .pure
      ⟨⟨hlength, hlength, htext _ hsized.referenceText, htext _ hsized.candidateText⟩, hback⟩
  -- any numbers of a control will do: outside of the layout nothing is written and zero is read
  rw [bind_answer (hr.write _ _ _ _ hstate.length), bind_answer (hc.write _ _ _ _ hstate.length),
    if_neg (not_not.2 rfl)]
  have hwritten (k i : ℤ) (v : Int16) :
      ((Layout.plan p).write state k i v).length = (Layout.plan p).storageSize :=
    (Layout.length_write _ _ _ _ _).trans hstate.length
  rw [bind_answer (hr.read _ _ _ (hwritten _ _ _)), bind_answer (hc.read _ _ _ (hwritten _ _ _)),
    if_neg (not_not.2 rfl)]
  exact .pure ⟨⟨hwritten _ _ _, hwritten _ _ _, htext _ hsized.referenceText,
    htext _ hsized.candidateText⟩, hback⟩

/-- What verification may report of codecs that compute the layout of a port: a state that does not
come back from its line, since a digit button that it holds merges into an axis. -/
structure Justified (p : Port) (e : Mismatch) : Prop where
  operation : ∃ rest, e.operation = "round trip" ++ rest
  merged : Line.Merged e.state (Layout.plan p).program

def drawn (l : Layout) (random : σ) : Bytes := l.canonicalize (source.bytes l.storageSize random).1

theorem rounds_quiet (hv : p.Valid) (hr : reference.Computes (.plan p))
    (hc : candidate.Computes (.plan p)) (count i : ℕ) {r : Round σ} (hsized : Sized (.plan p) r) :
    ∃ report, rounds source reference candidate count i r = .ok report ∧
      (∀ e ∈ report, Justified p e) ∧
      (0 < count → Line.Merged (drawn source (.plan p) r.random) (Layout.plan p).program →
        report ≠ none) := by
  induction count generalizing i r with
  | zero => exact ⟨none, rfl, nofun, nofun⟩
  | succ count ih =>
    have hstate : (Layout.plan p).Canonical (drawn source (.plan p) r.random) :=
      Layout.canonical_canonicalize (source.length_bytes _ _)
    unfold rounds
    rw [hr.layout]
    dsimp only
    rw [← drawn]
    generalize (source.bytes (Layout.plan p).storageSize r.random).2 = random
    have hsized' : Sized (.plan p) { r with random } := { hsized with }
    obtain ⟨r', hrun, hr', hback⟩ | ⟨rest, details, hrun, hmerged⟩ :=
      round_quiet source hv hr hc hstate hsized'
    · obtain ⟨report, hreport, hjustified, -⟩ := ih (i + 1) hr'
      rw [hrun]
      exact ⟨report, hreport, hjustified, fun _ hmerged => absurd hmerged hback⟩
    · rw [hrun]
      refine ⟨_, rfl, ?_, fun _ _ => Option.some_ne_none _⟩
      rintro e ⟨⟩
      exact ⟨⟨rest, rfl⟩, hmerged⟩

end Steps

/-- Codecs that answer as the interpreter of a valid port does are never told apart, whatever is
drawn. No step reaches outside of a buffer, and a report is about a state that does not come back
from its line. Such a state is not passed over, as the first one shows. -/
theorem run_raises_no_false_alarm {p : Port} {reference candidate : Subject (Except BufferFault)}
    (hv : p.validate = .ok ()) (hr : reference.AnswersAs (Codec.interpreter p).subject)
    (hc : candidate.AnswersAs (Codec.interpreter p).subject) (source : Random.Source σ)
    (iterations : ℕ) (random : σ) :
    (∀ state, state.length = (Layout.plan p).storageSize →
      (Layout.plan p).canCanonicalize state = true) ∧
      ∃ result, run source reference candidate iterations random = .ok result ∧
        (result = .ok () ∨ ∃ e, result = .error (.mismatch e) ∧ Justified p e) ∧
        ((∀ a o m c, [.axis a, .button o m c] <:+: (Layout.plan p).program →
          Decimal.isDigitByte c = false) → result = .ok ()) ∧
        (0 < iterations → Line.Merged (drawn source (.plan p) random) (Layout.plan p).program →
          result ≠ .ok ()) := by
  refine ⟨fun state => Layout.canCanonicalize_plan, ?_⟩
  have hvalid := (Port.validate_ok_iff p).1 hv
  have hr := hr.computes (Codec.computes_interpreter hvalid)
  have hc := hc.computes (Codec.computes_interpreter hvalid)
  unfold run
  rw [if_neg (by rw [hr.layout, hc.layout, not_not]), hr.layout, hc.layout]
  dsimp only
  obtain ⟨report, hrun, hjustified, hfirst⟩ := rounds_quiet source hvalid hr hc iterations 0
    (r := ⟨random, (Layout.plan p).newState, (Layout.plan p).newState,
      List.replicate (Layout.plan p).maxTextSize 0, List.replicate (Layout.plan p).maxTextSize 0⟩)
    ⟨Layout.newState_length _, Layout.newState_length _, by simp, by simp⟩
  rw [hrun]
  cases report with
  | none =>
    exact ⟨.ok (), rfl, .inl rfl, fun _ => rfl, fun h0 hmerged => absurd rfl (hfirst h0 hmerged)⟩
  | some e =>
    have he := hjustified e rfl
    refine ⟨.error (.mismatch e), rfl, .inr ⟨e, rfl, he⟩, fun hdigit => ?_, nofun⟩
    obtain ⟨a, o, m, c, hinfix, hc, -⟩ := he.merged
    rw [hdigit a o m c hinfix] at hc
    cases hc

/-- A source that draws nothing but ones, and the first of several. -/
def ones : Random.Source Unit where
  word s := (0xffffffff, s)
  below _ h s := (⟨0, h⟩, s)

/-- The compiled code of two pads passes with every seed. The digit behind an axis is found as soon
as it is held. -/
theorem pads_raise_no_false_alarm :
    let native (p : Port) (m : Program.Loaded) : Codec :=
      { port := p, layout := .plan p, backend := .native, native := some m }
    (∃ m : Program.Loaded, m.CodeOf Layout.twoPads ∧ ∀ seed, runSeeded
      (Codec.interpreter Layout.twoPads).subject (native Layout.twoPads m).subject 1000 seed =
        .ok (.ok ())) ∧
    ∃ m : Program.Loaded, m.CodeOf Layout.digitPort ∧ ∃ e, run ones
      (Codec.interpreter Layout.digitPort).subject (native Layout.digitPort m).subject 1 () =
        .ok (.error (.mismatch e)) ∧ Justified Layout.digitPort e := by
  intro native
  have hinterpreter (p : Port) (hv : p.Valid) :
      (Codec.interpreter p).subject.AnswersAs (Codec.interpreter p).subject :=
    (Codec.computes_interpreter hv).answersAs (Codec.computes_interpreter hv)
  have hnative {p : Port} {m : Program.Loaded} (hv : p.Valid) (hm : m.CodeOf p) :
      (native p m).subject.AnswersAs (Codec.interpreter p).subject := by
    have hshort := hm.layout_eq ▸ hm.maxTextSize_lt
    have hsubject : (native p m).subject.Computes (.plan p) := by
      refine Codec.computes_subject (c := native p m) (hm.computes hv) fun line hline => ?_
      change line.length ≤ max 1 (Layout.plan p).maxTextSize at hline
      omega
    exact hsubject.answersAs (Codec.computes_interpreter hv)
  constructor
  · have hv : Layout.twoPads.Valid := (Port.validate_ok_iff _).1 rfl
    obtain ⟨m, hm⟩ := Program.Loaded.exists_codeOf (p := Layout.twoPads)
      ((Program.Loaded.codeSize_host _).trans_lt (by decide +kernel))
    refine ⟨m, hm, fun seed => ?_⟩
    obtain ⟨-, result, hrun, -, hquiet, -⟩ := run_raises_no_false_alarm (p := Layout.twoPads) rfl
      (hinterpreter _ hv) (hnative hv hm) Random.Pcg.source 1000 (seeded seed)
    have hp : (Layout.plan Layout.twoPads).program = [.leadingPipe, .button 0 1 65, .button 0 2 66,
        .pipe, .axis 1, .button 0 4 67, .finish] := by decide
    obtain rfl := hquiet fun a o m c hinfix => by
      have hc : a = 1 ∧ o = 0 ∧ m = 4 ∧ c = 67 := by
        simpa [hp, List.infix_cons_iff, List.cons_prefix_cons] using hinfix
      rw [hc.2.2.2]
      rfl
    exact hrun
  · have hv : Layout.digitPort.Valid := (Port.validate_ok_iff _).1 rfl
    obtain ⟨m, hm⟩ := Program.Loaded.exists_codeOf (p := Layout.digitPort)
      ((Program.Loaded.codeSize_host _).trans_lt (by decide +kernel))
    obtain ⟨-, result, hrun, hreport, -, hfirst⟩ :=
      run_raises_no_false_alarm (p := Layout.digitPort) rfl (hinterpreter _ hv) (hnative hv hm)
        ones 1 ()
    obtain hok | ⟨e, rfl, he⟩ := hreport
    · have hinfix : [.axis 1, .button 0 1 55] <:+: (Layout.plan Layout.digitPort).program :=
        ⟨[], [.button 0 2 65, .finish], by decide⟩
      exact absurd hok (hfirst (by decide) ⟨1, 0, 1, 55, hinfix, rfl, by decide⟩)
    · exact ⟨m, hm, e, hrun, he⟩

end Verification
end PortCodec
