import PortCodec.Proofs.Running.Decimal
import PortCodec.Proofs.Running.Reading

/-! The routine that writes lines, step by step. Between steps the text register points behind what
has been written; nothing else has changed but a few registers and the top of the stack. -/

namespace PortCodec.Program

open X86

/-- The value of an axis, as it is loaded from its two bytes. -/
theorem toInt_axisAt (st : Bytes) (o : ℕ) :
    Width.toInt .word (Bytes.toNatLE [st.byteAt o, st.byteAt (o + 1)]) =
      (Line.axisAt st o).toInt := by
  have hword : (st.word o).toNat = Bytes.toNatLE [st.byteAt o, st.byteAt (o + 1)] := by
    have hlow := (st.byteAt o).toNat_lt
    have hhigh := (st.byteAt (o + 1)).toNat_lt
    have hor := Nat.shiftLeft_add_eq_or_of_lt hlow (st.byteAt (o + 1)).toNat
    have h8 : (8 : UInt16).toNat % 16 = 8 := rfl
    rw [Nat.shiftLeft_eq, Nat.or_comm] at hor
    simp only [Bytes.word, UInt16.toNat_or, UInt8.toNat_toUInt16,
      UInt16.toNat_shiftLeft, Bytes.toNatLE]
    rw [h8, Nat.shiftLeft_eq, Nat.mod_eq_of_lt (by omega), ← hor]
    omega
  have hspan : Width.span .word = 2 ^ 16 := by decide
  rw [← hword, Width.toInt, hspan]
  exact (BitVec.toInt_eq_toNat_bmod (st.word o).toBitVec).symm

def Target.scratch (t : Target) : List Register := t.frame.cursor :: t.volatile

theorem notMem_scratch (t : Target) : .rsp ∉ t.scratch ∧ t.frame.state ∉ t.scratch ∧
    t.frame.start ∉ t.scratch := by
  unfold Target.scratch Target.volatile Target.frame Frame.of
  split_ifs <;> decide

namespace Stage

/-- The bytes of stack that writing an axis takes: a return address, the cursor, a zero and
digits. -/
def reach (g : Stage) : ℕ := 8 * g.site.word

/-- A state can be read, a line of `n` bytes written and the stack used, all apart from each
other. -/
structure ReadyToWrite (g : Stage) (st : Bytes) (out n : ℕ) : Prop where
  fitting : Fitting g.site g.target
  intact : g.site.Intact g.memory
  size_lt : g.size < 2 ^ 31
  state_le : g.state + g.size ≤ g.site.guard.space
  reads_state : ∀ i < g.size, g.site.guard.readable (g.state + i) = true
  keeps_state : ∀ i < g.size, g.site.guard.writable (g.state + i) = false
  shows_state : ∀ i < g.size, g.site.memory (g.state + i) = st.byteAt i
  reach_le : g.reach ≤ g.top
  top_lt : g.top < g.site.guard.space
  owns_stack : g.site.Owns (g.top - g.reach) g.reach
  out_lt : out + n < g.site.guard.space
  writes_out : ∀ i < n, g.site.guard.writable (out + i) = true
  apart : out + n ≤ g.top - g.reach ∨ g.top ≤ out
  formatAxis : ∃ b, Lies g.site (g.site.place Mark.formatAxis.label) g.target.formatAxis b

structure Wrote (g : Stage) (out : ℕ) (text : Bytes) (R : Register → ℕ) (M : ℕ → UInt8) : Prop where
  registers : Kept g.target.scratch g.registers R
  cursor : R g.target.frame.cursor % g.site.guard.space =
    g.registers g.target.frame.cursor % g.site.guard.space
  position : R g.target.frame.text = out + text.length
  intact : g.site.Intact M
  drafted : Drafted g.memory M (g.top - g.reach) g.top out text

variable {g : Stage} {st text more : Bytes} {out n : ℕ} {R R' : Register → ℕ} {M M' : ℕ → UInt8}
  {q : Machine → Prop} {f : Flags} {a b : ℕ} {rest : List Item}

theorem Wrote.stateRegister (h : g.Wrote out text R M) : R g.target.frame.state = g.state :=
  h.registers _ (notMem_scratch _).2.1

theorem Wrote.stackPointer (h : g.Wrote out text R M) : R .rsp = g.top :=
  h.registers _ (notMem_scratch _).1

/-- The state is still there. -/
theorem Wrote.state (h : g.Wrote out text R M) (hg : g.ReadyToWrite st out n) {i : ℕ}
    (hi : i < g.size) :
    M (g.state + i) = st.byteAt i := by
  rw [h.intact _ (hg.keeps_state i hi), hg.shows_state i hi]

/-- More text is written and the text register moves behind it. -/
theorem Wrote.extend (h : g.Wrote out text R M) (hg : g.ReadyToWrite st out n)
    (hn : (text ++ more).length ≤ n) (hR : Kept g.target.scratch R R')
    (hcursor : R' g.target.frame.cursor % g.site.guard.space =
      R g.target.frame.cursor % g.site.guard.space)
    (hposition : R' g.target.frame.text = out + text.length + more.length)
    (hM : g.site.Intact M')
    (hdraft : Drafted M M' (g.top - g.reach) g.top (out + text.length) more) :
    g.Wrote out (text ++ more) R' M' where
  registers := h.registers.trans hR
  cursor := hcursor.trans h.cursor
  position := by rw [hposition, List.length_append, Nat.add_assoc]
  intact := hM
  drafted := by
    have := hg.apart
    rw [List.length_append] at hn
    exact h.drafted.append hdraft (by omega)

theorem text_mem_scratch (t : Target) : t.frame.text ∈ t.scratch := by
  simp [Target.scratch, Target.volatile]

theorem cursor_ne_text (t : Target) : t.frame.cursor ≠ t.frame.text := (cursor_ne t).2.2.2.2.2.1

/-- One byte has been put behind the text, and the text register moves on. -/
theorem advance_run {y : UInt8} (hg : g.ReadyToWrite st out n)
    (h : Lies g.site a (.code (.inc g.target.pointer g.target.frame.text) :: rest) b)
    (hw : g.Wrote out text R M) (hn : text.length + 1 ≤ n)
    (hM : g.site.Intact (splice M (out + text.length) [y]))
    (after : ∀ R' f M' k, g.Wrote out (text ++ [y]) R' M' → Lies g.site k rest b →
      Eventually g.site.guard q ⟨R', f, M', k⟩) :
    Eventually g.site.guard q ⟨R, f, splice M (out + text.length) [y], a⟩ := by
  have hlt := hg.out_lt
  refine h.count hg.fitting hM hw.position (by omega) fun f k hk => ?_
  refine after _ f _ k
    (hw.extend hg (by simpa using hn) ((Kept.refl _ R).update (text_mem_scratch _)) ?_
    (Function.update_self ..) hM .of_splice) hk
  rw [Function.update_of_ne (cursor_ne_text _)]

/-- Separators write themselves. -/
theorem writeSeparator_run {i : ℕ} {s : Step} (hg : g.ReadyToWrite st out n)
    (hsep : s = .leadingPipe ∨ s = .pipe) (h : Lies g.site a (g.target.serializeStep i s) b)
    (hw : g.Wrote out text R M) (hn : (text ++ Line.stepText st s).length ≤ n)
    (after : ∀ R' f M', g.Wrote out (text ++ Line.stepText st s) R' M' →
      Eventually g.site.guard q ⟨R', f, M', b⟩) :
    Eventually g.site.guard q ⟨R, f, M, a⟩ := by
  have hcode : Lies g.site a [.code (.movImmediate .byte (.memory g.target.textByte) 124),
      .code (.inc g.target.pointer g.target.frame.text)] b := by
    rcases hsep with rfl | rfl <;> exact h
  have htext : Line.stepText st s = [124] := by rcases hsep with rfl | rfl <;> rfl
  rw [htext] at hn after
  rw [List.length_append, List.length_singleton] at hn
  have hlt := hg.out_lt
  refine Lies.putByte (y := 124) rfl hcode hg.fitting hw.intact hw.position (by omega)
    (hg.writes_out _ hn) fun k hM hk => ?_
  refine advance_run hg hk hw hn hM fun R' f M' k hw' hk => ?_
  cases hk.nil_eq
  exact after R' f M' hw'

/-- A button writes its character, or a point if it is not pressed. -/
theorem writeButton_run {i o : ℕ} {mask char : UInt8} (hg : g.ReadyToWrite st out n)
    (ho : o < g.size)
    (h : Lies g.site a (g.target.serializeStep i (.button o mask char)) b)
    (hw : g.Wrote out text R M)
    (hn : (text ++ Line.stepText st (.button o mask char)).length ≤ n)
    (after : ∀ R' f M', g.Wrote out (text ++ Line.stepText st (.button o mask char)) R' M' →
      Eventually g.site.guard q ⟨R', f, M', b⟩) :
    Eventually g.site.guard q ⟨R, f, M, a⟩ := by
  have hstate := hw.stateRegister
  have hlt := hg.out_lt
  have hsize := hg.size_lt
  have hle := hg.state_le
  have hc := hg.fitting
  rw [Line.stepText, List.length_append, List.length_singleton] at hn
  have hend : Lies g.site (g.site.place (Mark.serialized i).label)
    [.code (.inc g.target.pointer g.target.frame.text)] b := h.at_mark 4 rfl
  refine Lies.next h hc.sound hw.intact (fun hq => absurd hq (by decide)) ?_ fun k _ hk =>
    ⟨_, execute_testByte (by omega) (hstate ▸ hg.reads_state o ho) k, ?_⟩
  · rintro _ ⟨⟩
    exact fits_pointer (by omega)
  rw [hstate, hw.state hg ho]
  refine Lies.putByte (y := 46) rfl hk hc hw.intact hw.position (by omega)
    (hg.writes_out _ (by omega)) fun k hM hk => ?_
  obtain ⟨answer, hanswer, hiff⟩ := Condition.equal_tests .byte ((st.byteAt o).toNat &&& mask.toNat)
  have hpressed : Line.testMask st o mask = !answer := by
    rw [Bool.eq_not_iff, ne_eq, Bool.eq_iff_iff, hiff, Line.testMask]
    simp [← UInt8.toNat_inj]
  rw [Line.stepText, hpressed] at after
  refine hk.branch (.inl rfl) hc.sound hM (by decide) hanswer (fun hzero => ?_) fun hone k hk => ?_
  · rw [hzero] at after
    refine advance_run hg hend hw hn hM fun R' f M' k hw' hk => ?_
    cases hk.nil_eq
    exact after R' f M' hw'
  · rw [hone] at after
    refine Lies.putByte (y := char) rfl hk hc hM hw.position (by omega)
      (hg.writes_out _ (by omega)) fun k hM hk => ?_
    have hover : splice (splice M (out + text.length) [46]) (out + text.length) [char] =
      splice M (out + text.length) [char] := splice_over rfl
    rw [hover] at hM ⊢
    refine advance_run hg hk.mark_eq.2 hw hn hM fun R' f M' k hw' hk => ?_
    cases hk.nil_eq
    exact after R' f M' hw'

theorem Wrote.setResult {v : ℕ} (h : g.Wrote out text R M) :
    g.Wrote out text (Function.update R .rax v) M where
  registers := h.registers.update (by simp [Target.scratch, Target.volatile])
  cursor := by rw [Function.update_of_ne (cursor_ne _).1, h.cursor]
  position := by rw [Function.update_of_ne (text_ne _).1, h.position]
  intact := h.intact
  drafted := h.drafted

/-- An axis is loaded with its sign. -/
theorem loadAxis_run {o : ℕ} (hg : g.ReadyToWrite st out n) (ho : o + 2 ≤ g.size)
    (h : Lies g.site a (.code (.loadSign .rax .word (g.target.stateAt o)) :: rest) b)
    (hw : g.Wrote out text R M)
    (after : ∀ R' f k, g.Wrote out text R' M →
      R' .rax = Width.ofInt .dword (Line.axisAt st o).toInt → Lies g.site k rest b →
      Eventually g.site.guard q ⟨R', f, M, k⟩) :
    Eventually g.site.guard q ⟨R, f, M, a⟩ := by
  have hstate := hw.stateRegister
  have hsize := hg.size_lt
  have hle := hg.state_le
  have hload (k : ℕ) : Machine.load g.site.guard ⟨R, f, M, k⟩ .word (R g.target.frame.state + o) =
      some (Bytes.toNatLE [st.byteAt o, st.byteAt (o + 1)]) := by
    rw [hstate]
    refine load_eq rfl (by simp; omega) (fun i hi => ?_) fun i hi => ?_
    · rw [Nat.add_assoc]
      exact hg.reads_state _ (by simp at hi; omega)
    · have hi : i = 0 ∨ i = 1 := by simp at hi; omega
      rw [Nat.add_assoc, hw.state hg (by omega)]
      rcases hi with rfl | rfl <;> rfl
  refine h.sets hg.fitting.sound hw.intact (.inr rfl) ?_
    (fun k => ⟨f, execute_loadSign (by omega) (hload k)⟩) fun k f hk => ?_
  · rintro _ ⟨⟩
    exact fits_pointer (by omega)
  · rw [toInt_axisAt]
    exact after _ f k hw.setResult (Function.update_self ..) hk

/-- The routine for axes is called, and returns. -/
theorem callFormat_run {v : Int16} (hg : g.ReadyToWrite st out n)
    (h : Lies g.site a (.code (.call Mark.formatAxis.label) :: rest) b) (hw : g.Wrote out text R M)
    (hv : R .rax = Width.ofInt .dword v.toInt) (hn : (text ++ Line.axisText v).length ≤ n)
    (after : ∀ R' f M' k, Kept g.target.scratch R R' →
      R' g.target.frame.cursor % g.site.guard.space = R g.target.frame.cursor % g.site.guard.space →
      R' g.target.frame.text = out + text.length → R' .rax = (Line.axisText v).length →
      g.site.Intact M' →
      Drafted M M' (g.top - g.reach) g.top (out + text.length) (Line.axisText v) →
      Lies g.site k rest b → Eventually g.site.guard q ⟨R', f, M', k⟩) :
    Eventually g.site.guard q ⟨R, f, M, a⟩ := by
  obtain ⟨hcursorrax, -, -, hcursorrsp, -, hcursortext, -⟩ := cursor_ne g.target
  have htextrsp : g.target.frame.text ≠ .rsp := (text_ne g.target).2.2.2.1
  obtain ⟨e, hformat⟩ := hg.formatAxis
  have hc := hg.fitting
  have hlow := hg.reach_le
  have htop := hg.top_lt
  have hlt := hg.out_lt
  have hapart := hg.apart
  have hreach : g.reach = 8 * g.site.word := rfl
  rw [List.length_append] at hn
  have howned (y : ℕ) (hy : g.top - g.reach ≤ y) (hy' : y < g.top) :
      g.site.guard.readable y = true ∧ g.site.guard.writable y = true := by
    have := hg.owns_stack (y - (g.top - g.reach)) (by omega)
    rwa [Nat.add_sub_cancel' hy] at this
  have htop₁ : g.site.Owns (g.top - g.site.word) g.site.word := fun i hi =>
    howned _ (by omega) (by omega)
  refine h.call hc.sound hw.intact hw.stackPointer (by omega) htop htop₁ fun back hback hk => ?_
  set M₁ := splice M (g.top - g.site.word) (Bytes.littleEndian g.site.word back)
  have hM₁ : g.site.Intact M₁ := intact_splice hw.intact fun i hi => (htop₁ i (by simpa using hi)).2
  have hstores₁ : g.site.Stores M₁ (g.top - g.site.word) back :=
    fun i hi => splice_inside (by simpa using hi)
  have hdraft₁ : Drafted M M₁ (g.top - g.reach) g.top (out + text.length) [] :=
    .of_stack fun y hy => splice_outside (by simp; omega)
  set R₁ := Function.update R .rsp (g.top - g.site.word) with hR₁
  have hrax₁ : R₁ .rax = Width.ofInt .dword v.toInt := by
    rw [hR₁, Function.update_of_ne (by decide), hv]
  have htext₁ : R₁ g.target.frame.text = out + text.length := by
    rw [hR₁, Function.update_of_ne htextrsp, hw.position]
  refine formatAxis_run hc hformat hM₁ hrax₁ (Function.update_self ..) (by omega) (by omega)
    (fun i hi => howned _ (by omega) (by omega)) htext₁ (by omega) (fun i hi => ?_) (by omega)
    fun R₂ f M₂ l hl hkept hcursor hrax hM₂ hdraft => ?_
  · rw [Nat.add_assoc]
    exact hg.writes_out _ (by omega)
  have hsp₂ : R₂ .rsp = g.top - g.site.word := by
    rw [hkept .rsp (by simp [hcursorrsp.symm]; decide), hR₁, Function.update_self]
  have hstores₂ : g.site.Stores M₂ (g.top - g.site.word) back := fun i hi => by
    rw [hdraft.others _ (by omega) (by omega)]
    exact hstores₁ i hi
  refine hl.ret hc.sound hM₂ hsp₂ (by omega) (fun i hi => (htop₁ i hi).1) hstores₂ hback ?_
  rw [Nat.sub_add_cancel (by omega)]
  obtain ⟨htextrax, htextrcx, htextrdx, -⟩ := text_ne g.target
  have hscratch : [.rax, .rcx, .rdx, g.target.frame.cursor] ⊆ g.target.scratch := by
    simp [Target.scratch, Target.volatile]
  refine after _ f M₂ back (fun r hr => ?_) ?_ ?_ ?_ hM₂ ?_ hk
  · by_cases hsp : r = .rsp
    · rw [hsp, Function.update_self, hw.stackPointer]
    · rw [Function.update_of_ne hsp, hkept r fun hm => hr (hscratch hm), hR₁,
        Function.update_of_ne hsp]
  · rw [Function.update_of_ne hcursorrsp, hcursor, hR₁,
      Function.update_of_ne hcursorrsp, Nat.mod_mod]
  · rw [Function.update_of_ne htextrsp,
      hkept _ (by simp [htextrax, htextrcx, htextrdx, hcursortext.symm]), htext₁]
  · rw [Function.update_of_ne (by decide), hrax]
  · have := hdraft₁.append (hdraft.mono (by omega) (by omega)) (by simp; omega)
    rwa [List.nil_append] at this

/-- An axis writes its value. -/
theorem writeAxis_run {i o : ℕ} (hg : g.ReadyToWrite st out n) (ho : o + 2 ≤ g.size)
    (h : Lies g.site a (g.target.serializeStep i (.axis o)) b) (hw : g.Wrote out text R M)
    (hn : (text ++ Line.stepText st (.axis o)).length ≤ n)
    (after : ∀ R' f M', g.Wrote out (text ++ Line.stepText st (.axis o)) R' M' →
      Eventually g.site.guard q ⟨R', f, M', b⟩) :
    Eventually g.site.guard q ⟨R, f, M, a⟩ := by
  have hlt := hg.out_lt
  refine loadAxis_run hg ho h hw fun R₁ f k hw₁ hrax hk => ?_
  refine callFormat_run hg hk hw₁ hrax hn
    fun R₂ f M₂ k hkept hcursor hposition hlength hM hdraft hk => ?_
  refine hk.sets hg.fitting.sound hM (show _ < 8 by decide) (by simp [Instruction.memory?])
    (fun k => execute_add hg.fitting.isWide k) fun k f hk => ?_
  cases hk.nil_eq
  refine after _ f M₂ (hw₁.extend hg hn (hkept.update (text_mem_scratch _)) ?_ ?_ hM hdraft)
  · rw [Function.update_of_ne (cursor_ne_text _), hcursor]
  · rw [List.length_append, Line.stepText] at hn
    rw [Function.update_self, hposition, hlength, ← hg.fitting.space, Nat.mod_eq_of_lt (by omega)]
    rfl

/-- A step before the end is run. -/
theorem writeStep_run {i : ℕ} {s : Step} (hg : g.ReadyToWrite st out n) (hend : s.isEnd = false)
    (hin : s.Inside g.size) (h : Lies g.site a (g.target.serializeStep i s) b)
    (hw : g.Wrote out text R M) (hn : (text ++ Line.stepText st s).length ≤ n)
    (after : ∀ R' f M', g.Wrote out (text ++ Line.stepText st s) R' M' →
      Eventually g.site.guard q ⟨R', f, M', b⟩) :
    Eventually g.site.guard q ⟨R, f, M, a⟩ := by
  cases s with
  | button o mask char => exact writeButton_run hg hin h hw hn after
  | axis o => exact writeAxis_run hg hin h hw hn after
  | leadingPipe => exact writeSeparator_run hg (.inl rfl) h hw hn after
  | pipe => exact writeSeparator_run hg (.inr rfl) h hw hn after
  | finish => cases hend
  | finishEmpty => cases hend

/-- The steps before the end are run. -/
theorem writeSteps_run {ps : List (Step × ℕ)} (hg : g.ReadyToWrite st out n)
    (hps : ∀ p ∈ ps, p.1.isEnd = false ∧ p.1.Inside g.size)
    (h : Lies g.site a ((ps.flatMap fun (s, i) => g.target.serializeStep i s) ++ rest) b)
    (hw : g.Wrote out text R M)
    (hn : (text ++ (ps.map (·.1)).flatMap (Line.stepText st)).length ≤ n)
    (after : ∀ R' f M' k, g.Wrote out (text ++ (ps.map (·.1)).flatMap (Line.stepText st)) R' M' →
      Lies g.site k rest b → Eventually g.site.guard q ⟨R', f, M', k⟩) :
    Eventually g.site.guard q ⟨R, f, M, a⟩ := by
  induction ps generalizing a text R M f with
  | nil =>
    rw [List.map_nil, List.flatMap_nil, List.append_nil] at after
    exact after R f M a hw h
  | cons p ps ih =>
    obtain ⟨hend, hin⟩ := hps p (by simp)
    rw [List.flatMap_cons, List.append_assoc] at h
    rw [List.map_cons, List.flatMap_cons, ← List.append_assoc] at hn after
    obtain ⟨k, hstep, hrest⟩ := h.append
    have hle : (text ++ Line.stepText st p.1).length ≤ n := by
      rw [List.length_append] at hn
      omega
    exact writeStep_run hg hend hin hstep hw hle fun R' f' M' hw' =>
      ih (fun p hp => hps p (by simp [hp])) hrest hw' hn after

/-- The length of what was written is the result. -/
theorem writeFinish_run {i : ℕ} {s : Step} (hg : g.ReadyToWrite st out n) (hend : s.isEnd = true)
    (hempty : s = .finishEmpty → text = [])
    (h : Lies g.site a (g.target.serializeStep i s ++ rest) b) (hw : g.Wrote out text R M)
    (hn : text.length ≤ n) (hstart : g.registers g.target.frame.start = out)
    (after : ∀ R' f k, g.Wrote out text R' M → R' .rax = text.length → Lies g.site k rest b →
      Eventually g.site.guard q ⟨R', f, M, k⟩) :
    Eventually g.site.guard q ⟨R, f, M, a⟩ := by
  have hlt := hg.out_lt
  cases s with
  | finish =>
    have hne : g.target.frame.start ≠ .rax := fun he =>
      start_notMem_volatile g.target (he ▸ rax_mem_volatile _)
    have hkept : R g.target.frame.start = out :=
      (hw.registers _ (notMem_scratch _).2.2).trans hstart
    refine Lies.distance h hg.fitting hw.intact hne hkept hw.position (by omega) fun f k hk => ?_
    exact after _ f k hw.setResult (Function.update_self ..) hk
  | finishEmpty =>
    refine Lies.sets h hg.fitting.sound hw.intact (show _ < 8 by decide)
      (by simp [Instruction.memory?]) (fun k => execute_zero Width.isWide_dword k) fun k f hk => ?_
    refine after _ f k hw.setResult ?_ hk
    rw [Function.update_self, hempty rfl, List.length_nil]
  | _ => cases hend

end Stage

end PortCodec.Program
