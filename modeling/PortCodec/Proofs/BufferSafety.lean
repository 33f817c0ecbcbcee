import PortCodec.Codec.Basic
import PortCodec.Proofs.Access
import PortCodec.Proofs.ProgramBounds

/-! Calls of a codec on buffers. With enough room no access goes outside of a buffer, the cursor on
a line stays on it, and no program runs past its end, so every call does what the layout says to the
first bytes of the state and leaves the others alone. With too little room it stops before it has
done anything. -/

namespace PortCodec

open BufferWork

section Access

variable {st out pre room bs : Bytes}

theorem needState_on {n : ℕ} (h : n ≤ st.length) :
    (needState n).on ⟨st, out⟩ = (.ok (), ⟨st, out⟩) := by
  simp [needState, on_bind, h]

theorem putText_on (h : bs.length ≤ room.length) : (putText pre.length bs).on ⟨st, pre ++ room⟩ =
    (.ok (), ⟨st, pre ++ bs ++ room.drop bs.length⟩) := by
  simp [putText, on_bind, h]

theorem Step.inside_iff (s : Step) (n : ℕ) : s.Inside n ↔ s.reach ≤ n := by
  cases s <;> simp [Step.Inside, Step.reach, Nat.succ_le_iff]

end Access

namespace Line

section Cursor

variable {line text : Bytes}

/-- Where the cursor is when a text is left of a line. -/
def cursor (line text : Bytes) : ℤ := (line.length : ℤ) - text.length

theorem cursor_cons (line : Bytes) (b : UInt8) (text : Bytes) :
    cursor line (b :: text) + 1 = cursor line text := by
  simp only [cursor, List.length_cons]
  omega

theorem byteFrom_cursor (h : text <:+ line) :
    byteFrom line.toArray (cursor line text) = .ok (text.headD 0) := by
  obtain ⟨used, rfl⟩ := h
  have hpos : cursor (used ++ text) text = used.length := by simp [cursor]
  rw [hpos, byteFrom]
  cases text with
  | nil => simp
  | cons b rest =>
    have hrest : ¬ (rest.length : ℤ) < 0 := by omega
    have hused : ¬ (used.length : ℤ) < 0 := by omega
    simp [hrest, hused]

theorem skipFieldFrom_cursor (h : text <:+ line) :
    skipFieldFrom line.toArray (cursor line text) = .ok (cursor line (skipField text)) := by
  induction text with
  | nil =>
    rw [skipFieldFrom]
    split
    next e he => cases (byteFrom_cursor h).symm.trans he
    next b he =>
      cases (byteFrom_cursor h).symm.trans he
      rfl
  | cons b rest ih =>
    rw [skipFieldFrom]
    split
    next e he => cases (byteFrom_cursor h).symm.trans he
    next b' he =>
      cases (byteFrom_cursor h).symm.trans he
      rw [cursor_cons, skipField, List.headD_cons]
      split_ifs
      · rfl
      · rfl
      · exact ih ((List.suffix_cons b rest).trans h)

theorem skipBlanksFrom_cursor (h : text <:+ line) :
    skipBlanksFrom line.toArray (cursor line text) = .ok (cursor line (skipBlanks text)) := by
  induction text with
  | nil =>
    rw [skipBlanksFrom]
    split
    next e he => cases (byteFrom_cursor h).symm.trans he
    next b he =>
      cases (byteFrom_cursor h).symm.trans he
      rfl
  | cons b rest ih =>
    rw [skipBlanksFrom]
    split
    next e he => cases (byteFrom_cursor h).symm.trans he
    next b' he =>
      cases (byteFrom_cursor h).symm.trans he
      rw [cursor_cons, skipBlanks, List.headD_cons]
      split_ifs
      · exact ih ((List.suffix_cons b rest).trans h)
      · rfl

theorem signFrom_cursor (h : text <:+ line) : signFrom line.toArray (cursor line text) =
    .ok ((Decimal.takeSign text).1, cursor line (Decimal.takeSign text).2) := by
  rw [signFrom, byteFrom_cursor h]
  cases text with
  | nil => rfl
  | cons b rest =>
    change Except.ok _ = _
    rw [cursor_cons, List.headD_cons]
    split_ifs with hm hp
    · subst hm
      rfl
    · subst hp
      rfl
    · rw [Decimal.takeSign_cons hm hp]

theorem digitsFrom_cursor (h : text <:+ line) (acc : Int32) :
    digitsFrom line.toArray acc (cursor line text) =
      .ok ((takeDigits acc text).1, cursor line (takeDigits acc text).2) := by
  induction text generalizing acc with
  | nil =>
    rw [digitsFrom]
    split
    next e he => cases (byteFrom_cursor h).symm.trans he
    next b he =>
      cases (byteFrom_cursor h).symm.trans he
      rfl
  | cons b rest ih =>
    rw [digitsFrom]
    split
    next e he => cases (byteFrom_cursor h).symm.trans he
    next b' he =>
      cases (byteFrom_cursor h).symm.trans he
      rw [cursor_cons, takeDigits, List.headD_cons]
      split_ifs
      · exact ih ((List.suffix_cons b rest).trans h) _
      · rfl

theorem axisFrom_cursor (h : text <:+ line) : axisFrom line.toArray (cursor line text) =
    .ok ((readAxis text).1, cursor line (readAxis text).2) := by
  have hblanks : skipBlanks text <:+ line := by
    rw [skipBlanks_eq]
    exact (List.dropWhile_suffix _).trans h
  have hsign := (Decimal.takeSign_suffix (skipBlanks text)).trans hblanks
  rw [axisFrom, skipBlanksFrom_cursor h]
  change (signFrom line.toArray _ >>= _) = _
  rw [signFrom_cursor hblanks]
  change (digitsFrom line.toArray 0 _ >>= _) = _
  rw [digitsFrom_cursor hsign]
  rfl

end Cursor

section Steps

variable {st out pre done room line text : Bytes} {s last : Step} {body : List Step}

theorem writeStepIn_on (hs : s.Inside st.length) (hroom : (stepText st s).length ≤ room.length) :
    (writeStepIn pre.length s).on ⟨st, pre ++ room⟩ =
      (.ok (stepText st s).length,
        ⟨st, pre ++ stepText st s ++ room.drop (stepText st s).length⟩) := by
  simp only [writeStepIn, on_bind, needState_on ((s.inside_iff _).1 hs), on_get,
    putText_on hroom, on_pure]

/-- A step moves the cursor over what it takes of the line. -/
theorem readStepIn_on (htext : text <:+ line) (hs : s.Inside st.length) :
    (readStepIn line.toArray (cursor line text) s).on ⟨st, out⟩ =
      (.ok (cursor line (readStep st text s).2), ⟨(readStep st text s).1, out⟩) := by
  have hreach : s.reach ≤ st.length := (s.inside_iff _).1 hs
  cases s with
  | button offset mask char =>
    simp only [readStepIn, on_bind, byteFrom_cursor htext, on_lift]
    cases text with
    | nil => rfl
    | cons b rest =>
      rw [cursor_cons, readStep, List.headD_cons]
      split_ifs
      · rfl
      · rfl
      · simp only [on_bind, needState_on (show offset + 1 ≤ st.length from hreach),
          on_modify, on_pure]
  | axis offset =>
    simp only [readStepIn, on_bind, axisFrom_cursor htext, on_lift,
      needState_on (show offset + 2 ≤ st.length from hreach), on_modify, on_pure, readStep]
  | leadingPipe | pipe =>
    simp only [readStepIn, skipFieldFrom_cursor htext, on_lift, readStep]
  | finish | finishEmpty => rfl

theorem writeStepsIn_cons (hs : s.isEnd = false) (start n : ℕ) (rest : List Step) :
    writeStepsIn start n (s :: rest) =
      writeStepIn (start + n) s >>= fun k => writeStepsIn start (n + k) rest := by
  cases s with
  | finish | finishEmpty => cases hs
  | _ => rfl

theorem readStepsIn_cons (hs : s.isEnd = false) (line : Array UInt8) (pos : ℤ)
    (rest : List Step) : readStepsIn line pos (s :: rest) =
      readStepIn line pos s >>= fun pos => readStepsIn line pos rest := by
  cases s with
  | finish | finishEmpty => cases hs
  | _ => rfl

/-- Steps write their texts one behind the other. -/
theorem writeStepsIn_on (hlast : last.isEnd = true)
    (hbody : ∀ s ∈ body, s.isEnd = false ∧ s.Inside st.length)
    (hroom : (body.flatMap (stepText st)).length ≤ room.length) :
    (writeStepsIn pre.length done.length (body ++ [last])).on ⟨st, pre ++ done ++ room⟩ =
      (.ok (if last = .finishEmpty then 0 else done.length + (body.flatMap (stepText st)).length),
        ⟨st, pre ++ done ++ body.flatMap (stepText st) ++
          room.drop (body.flatMap (stepText st)).length⟩) := by
  induction body generalizing done room with
  | nil =>
    cases last with
    | finish | finishEmpty => simp [writeStepsIn]
    | _ => cases hlast
  | cons s body ih =>
    obtain ⟨⟨hend, hs⟩, hbody⟩ := List.forall_mem_cons.1 hbody
    rw [List.flatMap_cons, List.length_append] at hroom
    -- the text of the first step joins what is there already, and takes the front of the room
    have hone := @writeStepIn_on st (pre ++ done) room s hs (by omega)
    have hrest := @ih (done ++ stepText st s) (room.drop (stepText st s).length) hbody
      (by rw [List.length_drop]; omega)
    simp only [List.length_append, List.append_assoc, List.drop_drop] at hone hrest
    simp only [List.cons_append, writeStepsIn_cons hend, on_bind, hone, hrest, List.append_assoc,
      List.flatMap_cons, List.length_append, Nat.add_assoc]

/-- Steps read from what the steps before them left. -/
theorem readStepsIn_on (htext : text <:+ line) (hlast : last.isEnd = true)
    (hbody : ∀ s ∈ body, s.isEnd = false ∧ s.Inside st.length) :
    (readStepsIn line.toArray (cursor line text) (body ++ [last])).on ⟨st, out⟩ =
      (.ok (if last = .finishEmpty then Layout.blank
          else (line.length : ℤ) - (readSteps st text body).2.length),
        ⟨(readSteps st text body).1, out⟩) := by
  induction body generalizing st text with
  | nil =>
    cases last with
    | finish | finishEmpty => simp [readStepsIn, readSteps, cursor]
    | _ => cases hlast
  | cons s body ih =>
    obtain ⟨⟨hend, hs⟩, hbody⟩ := List.forall_mem_cons.1 hbody
    have hrest := @ih (readStep st text s).1 (readStep st text s).2
      ((readStep_suffix st text s).trans htext) (by simpa only [length_readStep] using hbody)
    simp only [List.cons_append, readStepsIn_cons hend, on_bind, readStepIn_on htext hs, hrest,
      readSteps]

end Steps

end Line

namespace Entry

variable {e : Entry} {s t : Bytes}

theorem Within.reach_le (h : e.Within s) : e.reach ≤ s.length := by
  unfold reach
  split_ifs with hb ha
  · obtain ⟨n, ho, -, hn⟩ := h.bit hb
    omega
  · exact h.word ha
  · exact Nat.zero_le _

/-- A control is not looked for behind its place. -/
theorem fetch_append (h : e.Within s) : e.fetch (s ++ t) = e.fetch s := by
  unfold fetch
  by_cases hb : e.kind = .button
  · obtain ⟨n, ho, -, hn⟩ := h.bit hb
    rw [if_pos hb, if_pos hb, Line.testMask_append _ (ho ▸ hn)]
  · rw [if_neg hb, if_neg hb]
    split_ifs with ha
    · exact Line.axisAt_append (h.word ha)
    · rfl

/-- Storing a control changes nothing behind its place. -/
theorem store_append (h : e.Within s) (v : Int16) : e.store (s ++ t) v = e.store s v ++ t := by
  unfold store
  split_ifs with hb hv ha
  · obtain ⟨n, ho, -, hn⟩ := h.bit hb
    exact Line.setMask_append _ (ho ▸ hn)
  · obtain ⟨n, ho, -, hn⟩ := h.bit hb
    exact Line.clearMask_append _ (ho ▸ hn)
  · exact Line.setAxis_append v (h.word ha)
  · rfl

end Entry

namespace Layout

variable {l : Layout} {p : Port} {st tail out pre room line : Bytes}

theorem length_serialize_le (l : Layout) (st : Bytes) :
    (l.serialize st).length ≤ l.maxTextSize := by
  rw [serialize, maxTextSize]
  induction l.program with
  | nil => exact le_rfl
  | cons s steps ih =>
    have hs := Line.length_stepText_le st s
    rw [List.flatMap_cons, List.length_append, List.foldr_cons]
    omega

theorem serializeIn_on (hl : l.Proper) (hempty : .finishEmpty ∈ l.program → l.serialize st = [])
    (hs : l.storageSize ≤ st.length) (hroom : l.maxTextSize ≤ room.length) :
    (l.serializeIn pre.length).on ⟨st, pre ++ room⟩ =
      (.ok (l.serialize st).length,
        ⟨st, pre ++ l.serialize st ++ room.drop (l.serialize st).length⟩) := by
  have hlong := length_serialize_le l st
  obtain ⟨body, last, hprogram, hlast, hbody⟩ := hl
  have hline := serialize_of_program hprogram hlast st
  have hrun := @Line.writeStepsIn_on st pre [] room last body hlast
    (fun s h => ⟨(hbody s h).1, (hbody s h).2.mono hs⟩) (by rw [← hline]; omega)
  rw [← hline] at hrun
  simp only [List.length_nil, List.append_nil, Nat.zero_add] at hrun
  rw [serializeIn, hprogram, hrun]
  split_ifs with hfinish
  -- the empty end reports no text, and there is none
  · rw [hempty (by simp [hprogram, hfinish])]
    rfl
  · rfl

theorem deserializeIn_on (hl : l.Proper) (hs : l.storageSize ≤ st.length) :
    (l.deserializeIn line).on ⟨st, out⟩ =
      (.ok (l.deserialize st line).1, ⟨(l.deserialize st line).2, out⟩) := by
  obtain ⟨body, last, hprogram, hlast, hbody⟩ := hl
  have hclear : (Line.clearFirst l.storageSize st).length = st.length := Line.length_clearFirst _ _
  have hstart : Line.cursor line line = 0 := by simp [Line.cursor]
  simp only [deserializeIn, on_bind, needState_on hs, on_modify, hprogram,
    deserialize_of_program hprogram hlast fun s h => (hbody s h).1]
  rw [← hstart]
  exact Line.readStepsIn_on (List.suffix_refl line) hlast fun s h =>
    ⟨(hbody s h).1, hclear ▸ (hbody s h).2.mono hs⟩

/-- Every pair of numbers inside the bounds of a plan has an entry, whose bytes the state has. -/
theorem needControl_on (hs : (plan p).storageSize ≤ st.length) (k i : ℤ) :
    ((plan p).needControl k i).on ⟨st, out⟩ = (.ok (), ⟨st, out⟩) := by
  unfold needControl
  split_ifs with h
  · obtain ⟨e, he, -⟩ := @lookup?_plan_eq p k.toNat i.toNat (by omega) (by omega)
    simp only [he, needState_on (within_of_mem hs (List.mem_of_getElem? he)).reach_le]
  · rfl

theorem serialize_append (hl : l.Proper) (hs : st.length = l.storageSize) :
    l.serialize (st ++ tail) = l.serialize st := by
  obtain ⟨body, last, hprogram, hlast, hbody⟩ := hl
  rw [serialize_of_program hprogram hlast, serialize_of_program hprogram hlast]
  exact List.flatMap_congr fun s h => Line.stepText_append (hs ▸ (hbody s h).2)

theorem deserialize_append (hl : l.Proper) (hs : st.length = l.storageSize) :
    l.deserialize (st ++ tail) line =
      ((l.deserialize st line).1, (l.deserialize st line).2 ++ tail) := by
  obtain ⟨body, last, hprogram, hlast, hbody⟩ := hl
  have hclear : Line.clearFirst l.storageSize (st ++ tail) =
      Line.clearFirst l.storageSize st ++ tail := by
    rw [clearFirst_eq (by simp [hs]), clearFirst_eq hs.ge, List.drop_append_of_le_length hs.ge,
      List.append_assoc]
  have hend := fun s h => (hbody s h).1
  simp only [deserialize_of_program hprogram hlast hend, hclear]
  rw [Line.readSteps_append_state fun s h => ?_]
  rw [clearFirst_eq hs.ge]
  simpa [newState_length, hs] using (hbody s h).2

theorem read_append (hs : st.length = (plan p).storageSize) (k i : ℤ) :
    (plan p).read (st ++ tail) k i = (plan p).read st k i := by
  rw [read_eq, read_eq]
  cases h : (plan p).lookup? k i with
  | none => rfl
  | some e => exact Entry.fetch_append (within_plan hs.ge h)

theorem write_append (hs : st.length = (plan p).storageSize) (k i : ℤ) (v : Int16) :
    (plan p).write (st ++ tail) k i v = (plan p).write st k i v ++ tail := by
  rw [write_eq, write_eq]
  cases h : (plan p).lookup? k i with
  | none => rfl
  | some e => exact Entry.store_append (within_plan hs.ge h) v

end Layout

/-- Operations that do to buffers with enough room what a layout says, for the lines with `q`. -/
structure Engine.Computes (e : Engine) (l : Layout) (q : Bytes → Prop) : Prop where
  read : ∀ st out (k i : Int64), l.storageSize ≤ st.length →
    (e.read k i).on ⟨st, out⟩ = (.ok (l.read st k.toInt i.toInt), ⟨st, out⟩)
  write : ∀ st out (k i : Int64) (v : Int16), l.storageSize ≤ st.length →
    (e.write k i v).on ⟨st, out⟩ = (.ok (), ⟨l.write st k.toInt i.toInt v, out⟩)
  serialize : ∀ st pre room, l.storageSize ≤ st.length → l.maxTextSize ≤ room.length →
    (e.serialize pre.length).on ⟨st, pre ++ room⟩ = (.ok (l.serialize st).length,
      ⟨st, pre ++ l.serialize st ++ room.drop (l.serialize st).length⟩)
  deserialize : ∀ st out line, l.storageSize ≤ st.length → q line →
    (e.deserialize line).on ⟨st, out⟩ =
      (.ok (l.deserialize st line).1, ⟨(l.deserialize st line).2, out⟩)

theorem Engine.Computes.mono {e : Engine} {l : Layout} {q q' : Bytes → Prop}
    (h : e.Computes l q) (hq : ∀ line, q' line → q line) : e.Computes l q' :=
  { h with deserialize := fun st out line hs hline => h.deserialize st out line hs (hq line hline) }

/-- The interpreter computes the layout of every valid port, whatever the lines. -/
theorem Layout.engine_computes {p : Port} (hv : p.Valid) :
    (plan p).engine.Computes (plan p) fun _ => True where
  read st out k i hs := by
    simp only [engine, readIn, on_bind, needControl_on hs, on_get, on_pure]
  write st out k i v hs := by
    simp only [engine, writeIn, on_bind, needControl_on hs, on_modify]
  serialize st pre room hs hroom :=
    serializeIn_on (plan_proper hv) (fun h => serialize_plan_empty h st) hs hroom
  deserialize st out line hs _ := deserializeIn_on (plan_proper hv) hs

namespace Codec

variable {c : Codec} {st out pre room : Bytes}

theorem engine_of_native_eq_none (h : c.native = none) : c.engine = c.layout.engine := by
  rw [engine, h]

theorem checkState_on (h : c.layout.storageSize ≤ st.length) :
    c.checkState.on ⟨st, out⟩ = (.ok (), ⟨st, out⟩) := by
  simp [checkState, on_bind, Nat.not_lt.2 h]

theorem checkState_short (h : st.length < c.layout.storageSize) : c.checkState.on ⟨st, out⟩ =
    (.error (.state st.length c.layout.storageSize), ⟨st, out⟩) := by
  simp [checkState, on_bind, h]

theorem checkText_on (h : c.layout.maxTextSize ≤ room.length) :
    (c.checkText pre.length).on ⟨st, pre ++ room⟩ = (.ok (), ⟨st, pre ++ room⟩) := by
  simp [checkText, on_bind, Nat.not_lt.2 h]

theorem checkText_short (h : out.length < c.layout.maxTextSize) : (c.checkText 0).on ⟨st, out⟩ =
    (.error (.text out.length c.layout.maxTextSize), ⟨st, out⟩) := by
  simp [checkText, on_bind, h]

theorem checkState_bind_short {α : Type} (next : Unit → BufferWork α)
    (h : st.length < c.layout.storageSize) : (c.checkState >>= next).on ⟨st, out⟩ =
      (.error (.state st.length c.layout.storageSize), ⟨st, out⟩) := by
  rw [on_bind, checkState_short h]

/-- Whatever stops the line from being written, the text stays as it is. -/
theorem appendIn_short (h : st.length < c.layout.storageSize) : c.appendIn.on ⟨st, out⟩ =
    (.error (.state st.length c.layout.storageSize), ⟨st, out⟩) := by
  have hrun : (c.serializeIn out.length).on ⟨st, out ++ List.replicate c.layout.maxTextSize 0⟩ =
      (.error (.state st.length c.layout.storageSize), _) := checkState_bind_short _ h
  simp only [appendIn, on_bind, on_get, hrun, on_set, on_throw]

theorem serializeIn_short (hs : c.layout.storageSize ≤ st.length)
    (h : out.length < c.layout.maxTextSize) : c.serializeIn.on ⟨st, out⟩ =
      (.error (.text out.length c.layout.maxTextSize), ⟨st, out⟩) := by
  simp only [serializeIn, on_bind, checkState_on hs, checkText_short h]

theorem result_of_on {α : Type} {work : BufferWork α} {a : α} {b b' : Buffers}
    (h : work.on b = (.ok a, b')) : work.result b = .ok (a, b') := by
  rw [BufferWork.result, h]

theorem result_of_stop {α : Type} {work : BufferWork α} {e : BufferFault} {b b' : Buffers}
    (h : work.on b = (.error e, b')) : work.result b = .error e := by
  rw [BufferWork.result, h]

section Computes

variable {q : Bytes → Prop} (he : c.engine.Computes c.layout q)
  (hs : c.layout.storageSize ≤ st.length)
include he hs

theorem readIn_on (k i : Int64) :
    (c.readIn k i).on ⟨st, out⟩ = (.ok (c.layout.read st k.toInt i.toInt), ⟨st, out⟩) := by
  rw [readIn, on_bind, checkState_on hs]
  exact he.read st out k i hs

theorem writeIn_on (k i : Int64) (v : Int16) : (c.writeIn k i v).on ⟨st, out⟩ =
    (.ok (), ⟨c.layout.write st k.toInt i.toInt v, out⟩) := by
  rw [writeIn, on_bind, checkState_on hs]
  exact he.write st out k i v hs

theorem deserializeIn_on {line : Bytes} (hline : q line) : (c.deserializeIn line).on ⟨st, out⟩ =
    (.ok (c.layout.deserialize st line).1, ⟨(c.layout.deserialize st line).2, out⟩) := by
  rw [deserializeIn, on_bind, checkState_on hs]
  exact he.deserialize st out line hs hline

theorem serializeIn_on (hroom : c.layout.maxTextSize ≤ room.length) :
    (c.serializeIn pre.length).on ⟨st, pre ++ room⟩ =
      (.ok (c.layout.serialize st).length,
        ⟨st, pre ++ c.layout.serialize st ++ room.drop (c.layout.serialize st).length⟩) := by
  simp only [serializeIn, on_bind, checkState_on hs, checkText_on hroom]
  exact he.serialize st pre room hs hroom

theorem appendIn_on :
    c.appendIn.on ⟨st, out⟩ = (.ok (), ⟨st, out ++ c.layout.serialize st⟩) := by
  have hrun := @serializeIn_on c st out (List.replicate c.layout.maxTextSize 0) q he hs (by simp)
  simp only [appendIn, on_bind, on_get, hrun, on_set]
  rw [← List.length_append, List.take_left]

theorem read_eq (k i : Int64) : c.read st k i = .ok (c.layout.read st k.toInt i.toInt) := by
  rw [read, result_of_on (readIn_on he hs k i)]
  rfl

theorem write_eq (k i : Int64) (v : Int16) :
    c.write st k i v = .ok (c.layout.write st k.toInt i.toInt v) := by
  rw [write, result_of_on (writeIn_on he hs k i v)]
  rfl

theorem deserialize_eq {line : Bytes} (hline : q line) :
    c.deserialize st line = .ok (c.layout.deserialize st line) := by
  rw [deserialize, result_of_on (deserializeIn_on he hs hline)]
  rfl

theorem serialize_eq (hroom : c.layout.maxTextSize ≤ out.length) : c.serialize st out =
    .ok ((c.layout.serialize st).length,
      c.layout.serialize st ++ out.drop (c.layout.serialize st).length) :=
  congrArg (· >>= _) (result_of_on (@serializeIn_on c st [] out q he hs hroom))

theorem appendText_eq (text : Bytes) :
    c.appendText text st = .ok (text ++ c.layout.serialize st) := by
  rw [appendText, result_of_on (appendIn_on he hs)]
  rfl

end Computes

def own (c : Codec) (b : Buffers) : Bytes := b.state.take c.layout.storageSize

/-- The bytes of a state buffer behind those that the layout uses. -/
def spare (c : Codec) (b : Buffers) : Bytes := b.state.drop c.layout.storageSize

theorem own_append {s t : Bytes} (h : s.length = c.layout.storageSize) : c.own ⟨s ++ t, out⟩ = s :=
  List.take_left' h

theorem spare_append {s t : Bytes} (h : s.length = c.layout.storageSize) :
    c.spare ⟨s ++ t, out⟩ = t :=
  List.drop_left' h

/-- Work that is stopped with a message and leaves the buffers as they were. -/
def Stops {α : Type} (work : BufferWork α) (b : Buffers) (message : String) : Prop :=
  ∃ e : BufferFault, work.on b = (.error e, b) ∧ e.message = message

/-- The calls of a codec on buffers. None of them is stopped if there is room, and they use only the
bytes that the layout needs. If there is not, they leave the buffers alone. -/
structure BufferSafe (c : Codec) (b : Buffers) : Prop where
  read : c.layout.storageSize ≤ b.state.length → ∀ k i : Int64,
    (c.readIn k i).on b = (.ok (c.layout.read (c.own b) k.toInt i.toInt), b)
  write : c.layout.storageSize ≤ b.state.length → ∀ (k i : Int64) (v : Int16),
    (c.writeIn k i v).on b =
      (.ok (), { b with state := c.layout.write (c.own b) k.toInt i.toInt v ++ c.spare b })
  serialize : c.layout.storageSize ≤ b.state.length → c.layout.maxTextSize ≤ b.text.length →
    c.serializeIn.on b = (.ok (c.layout.serialize (c.own b)).length,
      { b with text := c.layout.serialize (c.own b) ++
          b.text.drop (c.layout.serialize (c.own b)).length })
  deserialize : c.layout.storageSize ≤ b.state.length → ∀ line : Bytes,
    (c.deserializeIn line).on b = (.ok (c.layout.deserialize (c.own b) line).1,
      { b with state := (c.layout.deserialize (c.own b) line).2 ++ c.spare b })
  append : c.layout.storageSize ≤ b.state.length →
    c.appendIn.on b = (.ok (), { b with text := b.text ++ c.layout.serialize (c.own b) })
  shortState : b.state.length < c.layout.storageSize → ∀ message, message =
    s!"codec: state buffer holds {b.state.length} bytes, layout needs {c.layout.storageSize}" →
      (∀ k i, Stops (c.readIn k i) b message) ∧ (∀ k i v, Stops (c.writeIn k i v) b message) ∧
      Stops c.serializeIn b message ∧ (∀ line, Stops (c.deserializeIn line) b message) ∧
      Stops c.appendIn b message
  shortText : c.layout.storageSize ≤ b.state.length → b.text.length < c.layout.maxTextSize →
    Stops c.serializeIn b
      s!"codec: text buffer holds {b.text.length} bytes, layout needs {c.layout.maxTextSize}"

/-- Every interpreted codec of a valid port keeps to its buffers. -/
theorem bufferSafe {p : Port} (hv : p.validate = .ok ()) (hl : c.layout = Layout.plan p)
    (hn : c.native = none) (b : Buffers) : BufferSafe c b := by
  have hvalid := (Port.validate_ok_iff p).1 hv
  have hproper : c.layout.Proper := hl ▸ Layout.plan_proper hvalid
  have he : c.engine.Computes c.layout fun _ => True := by
    rw [engine_of_native_eq_none hn, hl]
    exact Layout.engine_computes hvalid
  obtain ⟨st, out⟩ := b
  have hsplit (h : c.layout.storageSize ≤ st.length) :
      ∃ s t, st = s ++ t ∧ s.length = c.layout.storageSize :=
    ⟨_, _, (List.take_append_drop c.layout.storageSize st).symm, List.length_take_of_le h⟩
  constructor
  case read =>
    intro h k i
    obtain ⟨s, t, rfl, hlen⟩ := hsplit h
    rw [readIn_on he h, own_append hlen, hl, Layout.read_append (hl ▸ hlen)]
  case write =>
    intro h k i v
    obtain ⟨s, t, rfl, hlen⟩ := hsplit h
    rw [writeIn_on he h, own_append hlen, spare_append hlen, hl, Layout.write_append (hl ▸ hlen)]
  case serialize =>
    intro h hroom
    obtain ⟨s, t, rfl, hlen⟩ := hsplit h
    have hrun := @serializeIn_on c (s ++ t) [] out _ he h hroom
    rw [Layout.serialize_append hproper hlen] at hrun
    rw [own_append hlen]
    exact hrun
  case deserialize =>
    intro h line
    obtain ⟨s, t, rfl, hlen⟩ := hsplit h
    rw [deserializeIn_on he h trivial, own_append hlen, spare_append hlen,
      Layout.deserialize_append hproper hlen]
  case append =>
    intro h
    obtain ⟨s, t, rfl, hlen⟩ := hsplit h
    rw [appendIn_on he h, own_append hlen, Layout.serialize_append hproper hlen]
  case shortState =>
    rintro h _ rfl
    exact ⟨fun k i => ⟨.state _ _, checkState_bind_short _ h, rfl⟩,
      fun k i v => ⟨.state _ _, checkState_bind_short _ h, rfl⟩,
      ⟨.state _ _, checkState_bind_short _ h, rfl⟩,
      fun line => ⟨.state _ _, checkState_bind_short _ h, rfl⟩,
      .state _ _, appendIn_short h, rfl⟩
  case shortText => exact fun hs h => ⟨.text _ _, serializeIn_short hs h, rfl⟩

/-- Two pads with a state of one byte too many, and too little room for their lines; and with a
state of one byte too few. -/
theorem twoPads_bufferSafe :
    let c : Codec :=
      { port := Layout.twoPads, layout := .plan Layout.twoPads, backend := .interpreter }
    let b : Buffers := ⟨[255, 255, 255, 9], [0, 0, 0]⟩
    Layout.twoPads.validate = .ok () ∧
      (c.readIn 1 0).on b = (.ok (-1), b) ∧
      (c.writeIn 1 0 7).on b = (.ok (), ⟨[255, 7, 0, 9], [0, 0, 0]⟩) ∧
      c.appendIn.on b = (.ok (), ⟨b.state, [0, 0, 0] ++ [124, 65, 66, 124, 32, 45, 49, 67]⟩) ∧
      Stops c.serializeIn b "codec: text buffer holds 3 bytes, layout needs 12" ∧
      Stops c.appendIn ⟨[255, 255], [7]⟩ "codec: state buffer holds 2 bytes, layout needs 3" := by
  intro c b
  have hv : Layout.twoPads.validate = .ok () := rfl
  have hsafe : BufferSafe c b := bufferSafe hv rfl rfl b
  have hroom : c.layout.storageSize ≤ b.state.length := by decide
  refine ⟨hv, ?_, ?_, ?_, ?_, ?_⟩
  · rw [hsafe.read hroom]
    decide +kernel
  · rw [hsafe.write hroom]
    decide +kernel
  · rw [hsafe.append hroom]
    decide +kernel
  · convert hsafe.shortText hroom (by decide) using 1
    decide +kernel
  · have hshort : BufferSafe c ⟨[255, 255], [7]⟩ := bufferSafe hv rfl rfl _
    refine (hshort.shortState (by decide) _ ?_).2.2.2.2
    decide +kernel

end Codec
end PortCodec
