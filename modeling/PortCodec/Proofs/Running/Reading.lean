import PortCodec.Proofs.ProgramBounds
import PortCodec.Proofs.Running.Stage

/-! The body of the routine that reads lines: the state is cleared, the steps of the program are run
one after the other, and the result is left in the first register. -/

namespace PortCodec

namespace Program

open X86

namespace Stage

variable {g : Stage} {st text : Bytes} {R R' : Register → ℕ} {M : ℕ → UInt8} {q : Machine → Prop}
  {f : Flags} {a b limit : ℕ} {rest : List Item}

section Clear

theorem byteAt_clearFirst (k : ℕ) (st : Bytes) (i : ℕ) :
    (Line.clearFirst k st).byteAt i = if i < k then 0 else st.byteAt i := by
  simp only [Line.clearFirst, Bytes.byteAt, List.getD_eq_getElem?_getD, List.getElem?_append,
    List.length_replicate, List.getElem?_replicate, List.getElem?_drop]
  by_cases hk : k ≤ st.length
  · rw [Nat.min_eq_left hk]
    split_ifs
    · rfl
    · rw [Nat.add_sub_cancel' (by omega)]
  · have hbehind (j : ℕ) (hj : st.length ≤ j) : st[j]?.getD 0 = 0 := by
      rw [List.getElem?_eq_none hj]
      rfl
    rw [Nat.min_eq_right (by omega)]
    split_ifs
    · rfl
    · omega
    · exact hbehind _ (by omega)
    · rw [hbehind _ (by omega), hbehind _ (by omega)]

theorem littleEndian_zero (k : ℕ) : Bytes.littleEndian k 0 = List.replicate k 0 := by
  induction k with
  | zero => rfl
  | succ k ih => rw [Bytes.littleEndian, Nat.zero_div, ih, List.replicate_succ]; rfl

/-- Zeros are stored behind those that are there already. -/
theorem zero_run {w : Width} {o : ℕ} (hg : g.Ready) (hw : w ≠ .qword)
    (h : Lies g.site a (.code (.movImmediate w (.memory (g.target.stateAt o)) 0) :: rest) b)
    (ho : o + w.size ≤ g.size) (hshow : g.Shows (Line.clearFirst o st) R M)
    (after : ∀ M' k, g.Shows (Line.clearFirst (o + w.size) st) R M' → Lies g.site k rest b →
      Eventually g.site.guard q ⟨R, f, M', k⟩) :
    Eventually g.site.guard q ⟨R, f, M, a⟩ := by
  have hstate : R g.target.frame.state = g.state := hshow.stateRegister
  have hbounds := hg.state_le
  have hsize := hg.size_lt
  have hzero : w.ofInt 0 = 0 := by simp [Width.ofInt]
  refine h.next hg.fitting.sound (hshow.intact hg) (show w.Holds 0 from fun hq => absurd hq hw) ?_
    fun k _ hk => ⟨_, execute_storeImmediate (by omega) (fun i hi => ?_) k, ?_⟩
  · rintro _ ⟨⟩
    exact fits_pointer (by omega)
  · rw [hstate, Nat.add_assoc]
    exact (hg.owns_state (o + i) (by omega)).2
  · refine after _ k ?_ hk
    rw [hstate, hzero]
    refine hshow.splice (by simpa using ho)
      (by rw [Line.length_clearFirst, Line.length_clearFirst]) ?_ ?_
    · intro i hi
      rw [Bytes.littleEndian_length] at hi
      rw [byteAt_clearFirst, if_pos (by omega), littleEndian_zero, Bytes.byteAt_zeros]
    · intro i _ hio
      rw [Bytes.littleEndian_length] at hio
      rw [byteAt_clearFirst, byteAt_clearFirst]
      split_ifs <;> first | rfl | omega

/-- Zeros are stored four bytes at a time. -/
theorem zeros_run {j n : ℕ} (hg : g.Ready)
    (h : Lies g.site a ((List.range' j n).map (fun i =>
      Item.code (.movImmediate .dword (.memory (g.target.stateAt (4 * i))) 0)) ++ rest) b)
    (hn : 4 * (j + n) ≤ g.size) (hshow : g.Shows (Line.clearFirst (4 * j) st) R M)
    (after : ∀ M' k, g.Shows (Line.clearFirst (4 * (j + n)) st) R M' → Lies g.site k rest b →
      Eventually g.site.guard q ⟨R, f, M', k⟩) :
    Eventually g.site.guard q ⟨R, f, M, a⟩ := by
  induction n generalizing a j M with
  | zero => exact after M a hshow h
  | succ n ih =>
    have hdword : Width.size .dword = 4 := rfl
    refine zero_run hg (by decide) h (by omega) hshow fun M' k hshow' hk => ?_
    refine ih hk (by omega) ?_ ?_
    · rwa [hdword, show 4 * j + 4 = 4 * (j + 1) by omega] at hshow'
    · rwa [show j + (n + 1) = j + 1 + n by omega] at after

/-- Zeros are stored unless they need not be. -/
theorem zeroUnless_run {w : Width} {o j : ℕ} {p : Prop} [Decidable p] (hg : g.Ready)
    (hw : w ≠ .qword)
    (h : Lies g.site a ((if p then [] else
      [.code (.movImmediate w (.memory (g.target.stateAt o)) 0)]) ++ rest) b)
    (ho : ¬ p → j = o ∧ o + w.size ≤ g.size) (hshow : g.Shows (Line.clearFirst j st) R M)
    (after : ∀ M' k, g.Shows (Line.clearFirst (if p then j else j + w.size) st) R M' →
      Lies g.site k rest b → Eventually g.site.guard q ⟨R, f, M', k⟩) :
    Eventually g.site.guard q ⟨R, f, M, a⟩ := by
  by_cases hp : p
  · rw [if_pos hp] at h after
    exact after M a hshow h
  · obtain ⟨rfl, hle⟩ := ho hp
    rw [if_neg hp] at h after
    exact zero_run hg hw h hle hshow after

/-- The whole state is cleared. -/
theorem clearState_run (hg : g.Ready) (h : Lies g.site a (g.target.clearState ++ rest) b)
    (hshow : g.Shows st R M)
    (after : ∀ M' k, g.Shows (Line.clearFirst g.size st) R M' → Lies g.site k rest b →
      Eventually g.site.guard q ⟨R, f, M', k⟩) :
    Eventually g.site.guard q ⟨R, f, M, a⟩ := by
  have hn : g.target.layout.storageSize = g.size := rfl
  have hword : Width.size .word = 2 := rfl
  have hbyte : Width.size .byte = 1 := rfl
  simp only [Target.clearState, hn, List.range_eq_range', List.append_assoc] at h
  have hzero : Line.clearFirst (4 * 0) st = st := by simp [Line.clearFirst]
  refine zeros_run hg h (by omega) (hzero.symm ▸ hshow) fun M k hshow hk => ?_
  -- two bytes may be left, and then one
  refine zeroUnless_run hg (by decide) hk (fun hp => by omega) hshow fun M k hshow hk => ?_
  refine zeroUnless_run hg (by decide) hk (fun hp => ?_) hshow fun M k hshow hk => ?_
  · split_ifs <;> omega
  · refine after M k ?_ hk
    convert hshow using 2
    split_ifs <;> omega

end Clear

section Steps

/-- A step before the end is run. -/
theorem step_run {i : ℕ} {s : Step} (hg : g.Ready) (hend : s.isEnd = false) (hin : s.Inside g.size)
    (h : Lies g.site a (g.target.deserializeStep i s) b) (hat : g.At limit st text R M)
    (after : ∀ R' f M', g.At limit (Line.readStep st text s).1 (Line.readStep st text s).2 R' M' →
      Eventually g.site.guard q ⟨R', f, M', b⟩) :
    Eventually g.site.guard q ⟨R, f, M, a⟩ := by
  cases s with
  | button o mask char => exact button_run hg h hin hat after
  | axis o => exact axis_run hg h hin hat after
  | leadingPipe => exact separator_run hg (.inl rfl) h hat after
  | pipe => exact separator_run hg (.inr rfl) h hat after
  | finish => cases hend
  | finishEmpty => cases hend

/-- The steps before the end are run. -/
theorem steps_run {ps : List (Step × ℕ)} (hg : g.Ready)
    (hps : ∀ p ∈ ps, p.1.isEnd = false ∧ p.1.Inside g.size)
    (h : Lies g.site a ((ps.flatMap fun (s, i) => g.target.deserializeStep i s) ++ rest) b)
    (hat : g.At limit st text R M)
    (after : ∀ R' f M' k, g.At limit (Line.readSteps st text (ps.map (·.1))).1
      (Line.readSteps st text (ps.map (·.1))).2 R' M' → Lies g.site k rest b →
      Eventually g.site.guard q ⟨R', f, M', k⟩) :
    Eventually g.site.guard q ⟨R, f, M, a⟩ := by
  induction ps generalizing a st text R M f with
  | nil => exact after R f M a hat h
  | cons p ps ih =>
    obtain ⟨hend, hin⟩ := hps p (by simp)
    rw [List.flatMap_cons, List.append_assoc] at h
    obtain ⟨k, hstep, hrest⟩ := h.append
    exact step_run hg hend hin hstep hat fun R' f' M' hat' =>
      ih (fun p hp => hps p (by simp [hp])) hrest hat' after

end Steps

section Finish

variable {i : ℕ}

theorem start_notMem_volatile (t : Target) : t.frame.start ∉ t.volatile := by
  unfold Target.volatile Target.frame Frame.of
  split_ifs <;> decide

/-- The length of what was read is the result. -/
theorem finish_run (hg : g.Ready)
    (h : Lies g.site a (g.target.deserializeStep i .finish ++ rest) b)
    (hat : g.At limit st text R M)
    (hstart : g.registers g.target.frame.start ≤ R g.target.frame.text)
    (after : ∀ R' f k, g.Shows st R' M →
      R' .rax = R g.target.frame.text - g.registers g.target.frame.start → Lies g.site k rest b →
      Eventually g.site.guard q ⟨R', f, M, k⟩) :
    Eventually g.site.guard q ⟨R, f, M, a⟩ := by
  obtain ⟨hshow, hs, -⟩ := hat
  have hlt := hs.lt
  have hne : g.target.frame.start ≠ .rax := fun he =>
    start_notMem_volatile g.target (he ▸ rax_mem_volatile _)
  have hkept : R g.target.frame.start = g.registers g.target.frame.start :=
    hshow.registers _ (start_notMem_volatile _)
  have hbehind := (Nat.add_sub_cancel' hstart).symm
  refine Lies.distance h hg.fitting (hshow.intact hg) hne hkept hbehind (hbehind ▸ hlt)
    fun f k hk => ?_
  exact after _ f k (hshow.update (rax_mem_volatile _)) (Function.update_self ..) hk

/-- Without controllers the result is minus one. -/
theorem finishEmpty_run (hg : g.Ready)
    (h : Lies g.site a (g.target.deserializeStep i .finishEmpty ++ rest) b) (hshow : g.Shows st R M)
    (after : ∀ R' f k, g.Shows st R' M → R' .rax = g.target.pointer.ofInt Layout.blank →
      Lies g.site k rest b →
      Eventually g.site.guard q ⟨R', f, M, k⟩) :
    Eventually g.site.guard q ⟨R, f, M, a⟩ := by
  have hc := hg.fitting
  have h : Lies g.site a (.code (.movImmediate g.target.pointer (.register .rax) (-1)) :: rest) b :=
    h
  refine h.sets hc.sound (hshow.intact hg) (show g.target.pointer.Holds _ from fun _ => by decide)
    (by simp [Instruction.memory?, Operand.memory?])
    (fun k => ⟨f, execute_movImmediate hc.isWide k⟩) fun k f hk => ?_
  refine after _ f k (hshow.update (rax_mem_volatile _)) ?_ hk
  rw [Function.update_self, Nat.mod_eq_of_lt (Width.ofInt_lt _ _)]
  rfl

end Finish

end Stage

end Program

end PortCodec
