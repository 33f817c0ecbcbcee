import PortCodec.Proofs.Running.Text

/-! The routine that reads lines, step by step. Between steps the text register points at what is
left of the line and the memory of the state holds what has been read; nothing else has changed but
a few registers and the top of the stack. -/

namespace PortCodec.Program

open X86

section Stored

/-- A state is in memory from an address on, and other places that have to be kept are as they
were. -/
structure Stored (x n : ℕ) (keeps : ℕ → Prop) (M₀ : ℕ → UInt8) (st : Bytes) (M : ℕ → UInt8) :
    Prop where
  length : n ≤ st.length
  state : ∀ i < n, M (x + i) = st.byteAt i
  others : ∀ z, z < x ∨ x + n ≤ z → keeps z → M z = M₀ z

namespace Stored

variable {x n o : ℕ} {keeps : ℕ → Prop} {M₀ M : ℕ → UInt8} {st : Bytes}

/-- Bytes are put into the state. -/
theorem splice {bs st' : Bytes} (h : Stored x n keeps M₀ st M) (ho : o + bs.length ≤ n)
    (hlen : st'.length = st.length) (hin : ∀ i < bs.length, st'.byteAt (o + i) = bs.byteAt i)
    (hout : ∀ i < n, i < o ∨ o + bs.length ≤ i → st'.byteAt i = st.byteAt i) :
    Stored x n keeps M₀ st' (X86.splice M (x + o) bs) where
  length := hlen ▸ h.length
  state := by
    intro i hi
    by_cases hio : i < o ∨ o + bs.length ≤ i
    · rw [splice_outside (by omega), hout i hi hio]
      exact h.state i hi
    · obtain ⟨k, rfl⟩ : ∃ k, i = o + k := ⟨i - o, by omega⟩
      rw [← Nat.add_assoc, splice_inside (by omega), hin k (by omega)]
  others := by
    intro z hz hkeeps
    rw [splice_outside (by omega)]
    exact h.others z hz hkeeps

/-- A byte of the state is changed. -/
theorem modify {g : UInt8 → UInt8} (h : Stored x n keeps M₀ st M) (ho : o < n) :
    Stored x n keeps M₀ (st.modify o g) (X86.splice M (x + o) [g (M (x + o))]) := by
  have hlen : o < st.length := ho.trans_le h.length
  refine h.splice (by simpa using ho) (by simp) ?_ ?_
  · intro i hi
    obtain rfl : i = 0 := by simpa using hi
    rw [Bytes.byteAt_modify, if_pos ⟨rfl, by simpa using hlen⟩, h.state o ho]
    rfl
  · intro i _ hio
    rw [Bytes.byteAt_modify, if_neg (by simp at hio; omega)]

theorem setMask {mask : UInt8} (h : Stored x n keeps M₀ st M) (ho : o < n) :
    Stored x n keeps M₀ (Line.setMask st o mask) (X86.splice M (x + o) [M (x + o) ||| mask]) :=
  h.modify ho

theorem clearMask {mask : UInt8} (h : Stored x n keeps M₀ st M) (ho : o < n) :
    Stored x n keeps M₀ (Line.clearMask st o mask) (X86.splice M (x + o) [M (x + o) &&& ~~~mask]) :=
  h.modify ho

/-- The bytes of an axis value, as they are stored. -/
theorem littleEndian_axis (v : Int16) :
    Bytes.littleEndian 2 v.toUInt16.toNat = [v.toUInt16.toUInt8, (v.toUInt16 >>> 8).toUInt8] := by
  simp only [Bytes.littleEndian, List.cons.injEq, and_true, ← UInt8.toNat_inj]
  simp [Nat.shiftRight_eq_div_pow]

/-- The value of an axis goes into its bytes of the state. -/
theorem setAxis {v : Int16} (h : Stored x n keeps M₀ st M) (ho : o + 2 ≤ n) :
    Stored x n keeps M₀ (Line.setAxis st o v)
      (X86.splice M (x + o) (Bytes.littleEndian 2 v.toUInt16.toNat)) := by
  have hlen := h.length
  rw [littleEndian_axis]
  refine h.splice (by simpa using ho) (Line.setAxis_length st o v) ?_ ?_
  · intro i hi
    have hi : i = 0 ∨ i = 1 := by simp at hi; omega
    rcases hi with rfl | rfl
    · rw [Line.setAxis, Bytes.setWord, Bytes.byteAt_set, if_neg (by omega), Bytes.byteAt_set,
        if_pos ⟨rfl, by omega⟩]
      rfl
    · rw [Line.setAxis, Bytes.setWord, Bytes.byteAt_set, if_pos ⟨rfl, by simp; omega⟩]
      rfl
  · intro i _ hio
    simp only [List.length_cons, List.length_nil] at hio
    exact Line.byteAt_setAxis_of_ne st v (by omega) (by omega)

end Stored

end Stored

/-- The registers that the code of a step may change. -/
def Target.volatile (t : Target) : List Register := [.rax, .rcx, .rdx, t.frame.text]

/-- A routine at work: its code, and the registers and the memory it started with. -/
structure Stage where
  site : Site
  target : Target
  registers : Register → ℕ
  memory : ℕ → UInt8

namespace Stage

def state (g : Stage) : ℕ := g.registers g.target.frame.state

def top (g : Stage) : ℕ := g.registers .rsp

def size (g : Stage) : ℕ := g.target.layout.storageSize

/-- State and stack are where the code may use them, apart from each other, and the routines that
are called lie at their marks. -/
structure Ready (g : Stage) : Prop where
  fitting : Fitting g.site g.target
  intact : g.site.Intact g.memory
  size_lt : g.size < 2 ^ 31
  state_le : g.state + g.size ≤ g.site.guard.space
  owns_state : g.site.Owns g.state g.size
  word_le : g.site.word ≤ g.top
  top_lt : g.top < g.site.guard.space
  owns_top : g.site.Owns (g.top - g.site.word) g.site.word
  apart : g.state + g.size ≤ g.top - g.site.word ∨ g.top ≤ g.state
  parseAxis : ∃ b, Lies g.site (g.site.place Mark.parseAxis.label) g.target.parseAxis b
  skipField : ∃ b, Lies g.site (g.site.place Mark.skipField.label) g.target.skipField b

/-- The machine shows a state: it is in memory, and the rest is as at the start. -/
structure Shows (g : Stage) (st : Bytes) (R : Register → ℕ) (M : ℕ → UInt8) : Prop where
  registers : Kept g.target.volatile g.registers R
  length : g.size ≤ st.length
  state : ∀ i < g.size, M (g.state + i) = st.byteAt i
  others : ∀ x, x < g.state ∨ g.state + g.size ≤ x → x < g.top - g.site.word ∨ g.top ≤ x →
    M x = g.memory x

variable {g : Stage} {st : Bytes} {R R' : Register → ℕ} {M : ℕ → UInt8}

theorem Shows.intact (h : g.Shows st R M) (hg : g.Ready) : g.site.Intact M := by
  intro x hx
  have hstate : x < g.state ∨ g.state + g.size ≤ x := by
    by_contra hin
    obtain ⟨i, rfl⟩ : ∃ i, x = g.state + i := ⟨x - g.state, by omega⟩
    have := (hg.owns_state i (by omega)).2
    simp [hx] at this
  have htop : x < g.top - g.site.word ∨ g.top ≤ x := by
    by_contra hin
    obtain ⟨i, rfl⟩ : ∃ i, x = g.top - g.site.word + i := ⟨x - (g.top - g.site.word), by omega⟩
    have := (hg.owns_top i (by omega)).2
    simp [hx] at this
  rw [h.others x hstate htop]
  exact hg.intact x hx

theorem Shows.stateRegister (h : g.Shows st R M) : R g.target.frame.state = g.state := by
  refine h.registers _ ?_
  unfold Target.volatile Target.frame Frame.of
  split_ifs <;> decide

theorem Shows.stackPointer (h : g.Shows st R M) : R .rsp = g.top := by
  refine h.registers _ ?_
  unfold Target.volatile Target.frame Frame.of
  split_ifs <;> decide

theorem Shows.update {r : Register} {v : ℕ} (h : g.Shows st R M) (hr : r ∈ g.target.volatile) :
    g.Shows st (Function.update R r v) M :=
  ⟨h.registers.update hr, h.length, h.state, h.others⟩

theorem Shows.stored (h : g.Shows st R M) : Stored g.state g.size
    (fun z => z < g.top - g.site.word ∨ g.top ≤ z) g.memory st M := ⟨h.length, h.state, h.others⟩

theorem Shows.of_stored (hR : Kept g.target.volatile g.registers R) (h : Stored g.state g.size
    (fun z => z < g.top - g.site.word ∨ g.top ≤ z) g.memory st M) : g.Shows st R M :=
  ⟨hR, h.length, h.state, h.others⟩

/-- Bytes are put into the state. -/
theorem Shows.splice {o : ℕ} {bs st' : Bytes} (h : g.Shows st R M) (ho : o + bs.length ≤ g.size)
    (hlen : st'.length = st.length) (hin : ∀ i < bs.length, st'.byteAt (o + i) = bs.byteAt i)
    (hout : ∀ i < g.size, i < o ∨ o + bs.length ≤ i → st'.byteAt i = st.byteAt i) :
    g.Shows st' R (splice M (g.state + o) bs) :=
  .of_stored h.registers (h.stored.splice ho hlen hin hout)

theorem rsp_notMem_volatile (t : Target) : .rsp ∉ t.volatile := by
  unfold Target.volatile Target.frame Frame.of
  split_ifs <;> decide

variable {q : Machine → Prop} {f : Flags} {a b e : ℕ} {rest : List Item} {text : Bytes}

/-- Memory after something was put on top of the stack. -/
theorem Shows.pushed {bs : Bytes} (h : g.Shows st R M) (hg : g.Ready)
    (hbs : bs.length = g.site.word) :
    g.Shows st R (X86.splice M (g.top - g.site.word) bs) where
  registers := h.registers
  length := h.length
  state := by
    intro i hi
    have := hg.apart
    have := hg.word_le
    rw [splice_outside (by omega)]
    exact h.state i hi
  others := by
    intro x hx hx'
    have := hg.word_le
    rw [splice_outside (by omega)]
    exact h.others x hx hx'

/-- A routine is called that changes volatile registers only, and returns. -/
theorem call_run {l : ℤ} (hg : g.Ready) (h : Lies g.site a (.code (.call l) :: rest) b)
    (hshow : g.Shows st R M)
    (body : ∀ R₁ M₁, R₁ g.target.frame.text = R g.target.frame.text → g.site.Intact M₁ →
      (∀ R' f k, Lies g.site k [.code .ret] e → Kept g.target.volatile R₁ R' →
        (∀ R'' M'' k, g.Shows st R'' M'' → (∀ r ∈ g.target.volatile, R'' r = R' r) →
          Lies g.site k rest b → Eventually g.site.guard q ⟨R'', f, M'', k⟩) →
        Eventually g.site.guard q ⟨R', f, M₁, k⟩) →
      Eventually g.site.guard q ⟨R₁, f, M₁, g.site.place l⟩) :
    Eventually g.site.guard q ⟨R, f, M, a⟩ := by
  have hword := hg.word_le
  have htop := hg.top_lt
  refine h.call hg.fitting.sound (hshow.intact hg) hshow.stackPointer hword htop hg.owns_top
    fun k hlt hk => ?_
  have hpushed : g.Shows st R (X86.splice M (g.top - g.site.word)
      (Bytes.littleEndian g.site.word k)) := hshow.pushed hg (by simp)
  refine body _ _ (Function.update_of_ne (text_ne _).2.2.2.1 _ _) (hpushed.intact hg) ?_
  intro R' f k' hk' hkept after
  have hrsp : R' .rsp = g.top - g.site.word := by
    rw [hkept .rsp (rsp_notMem_volatile _), Function.update_self]
  refine hk'.ret hg.fitting.sound (hpushed.intact hg) hrsp (by omega)
    (fun i hi => (hg.owns_top i hi).1) (fun i hi => splice_inside (by simpa using hi)) hlt ?_
  rw [Nat.sub_add_cancel hword]
  refine after _ _ k ⟨?_, hpushed.length, hpushed.state, hpushed.others⟩ ?_ hk
  · intro r hr
    by_cases hsp : r = .rsp
    · subst hsp
      exact Function.update_self ..
    · rw [Function.update_of_ne hsp, hkept r hr, Function.update_of_ne hsp]
      exact hshow.registers r hr
  · intro r hr
    refine Function.update_of_ne ?_ _ _
    rintro rfl
    exact rsp_notMem_volatile _ hr

/-- The machine shows a state and is at what is left of a line that ends at an address. -/
structure At (g : Stage) (limit : ℕ) (st text : Bytes) (R : Register → ℕ) (M : ℕ → UInt8) :
    Prop where
  shows : g.Shows st R M
  spells : g.site.Spells (R g.target.frame.text) text
  limit : R g.target.frame.text + text.length = limit

variable {limit : ℕ}

theorem text_mem_volatile (t : Target) : t.frame.text ∈ t.volatile := by simp [Target.volatile]

theorem rax_mem_volatile (t : Target) : .rax ∈ t.volatile := by simp [Target.volatile]

theorem isFieldEnd_cases (y : UInt8) : isFieldEnd y = true ↔ y ∈ [124, 13, 10] ∨ y = 0 := by
  simp [isFieldEnd, or_assoc]

/-- The mask of a button goes into its byte of the state. -/
theorem Shows.setMask {o : ℕ} {mask : UInt8} (h : g.Shows st R M) (ho : o < g.size) :
    g.Shows (Line.setMask st o mask) R (X86.splice M (g.state + o) [M (g.state + o) ||| mask]) :=
  .of_stored h.registers (h.stored.setMask ho)

/-- A button is read. -/
theorem button_run {i o : ℕ} {mask char : UInt8} (hg : g.Ready)
    (h : Lies g.site a (g.target.deserializeStep i (.button o mask char)) b) (ho : o < g.size)
    (hat : g.At limit st text R M)
    (after : ∀ R' f M', g.At limit (Line.readStep st text (.button o mask char)).1
      (Line.readStep st text (.button o mask char)).2 R' M' →
      Eventually g.site.guard q ⟨R', f, M', b⟩) :
    Eventually g.site.guard q ⟨R, f, M, a⟩ := by
  obtain ⟨hshow, hs, hlimit⟩ := hat
  obtain ⟨y, more, rfl⟩ := hs.exists_cons
  have hM := hshow.intact hg
  have hc := hg.fitting
  have hend : g.site.place (Mark.deserialized i).label = b := (h.at_mark 15 rfl).nil_eq
  have hrax : g.target.frame.text ≠ .rax := (text_ne _).1
  refine h.loadText hc hM hs fun f k hk => ?_
  have hk : Lies g.site k (jumpOnByte [124, 13, 10] (.deserialized i) ++
    (.code (.test .byte .rax .rax) :: .code (.jccShort .equal (Mark.deserialized i).label) ::
      .code (.inc g.target.pointer g.target.frame.text) ::
      (jumpOnByte [46, 32] (.deserialized i) ++
        [.code (.aluImmediate .or .byte (.memory (g.target.stateAt o)) mask.toNat),
         .mark (.deserialized i)]))) b := hk
  have hy : Function.update R .rax y.toNat .rax = y.toNat := Function.update_self ..
  have htext : Function.update R .rax y.toNat g.target.frame.text = R g.target.frame.text :=
    Function.update_of_ne hrax _ _
  have hshow₁ : g.Shows st (Function.update R .rax y.toNat) M :=
    hshow.update (rax_mem_volatile _)
  have hstop (hy : isFieldEnd y = true) (f : Flags) : Eventually g.site.guard q
      ⟨Function.update R .rax y.toNat, f, M, g.site.place (Mark.deserialized i).label⟩ := by
    rw [hend]
    refine after _ f _ ?_
    simp only [Line.readStep, hy, ↓reduceIte]
    exact ⟨hshow₁, htext ▸ hs, htext ▸ hlimit⟩
  refine Lies.jumpOn [124, 13, 10] hk rfl hc hM hy (fun hit => ?_) fun miss f k hk => ?_
  · exact hstop ((isFieldEnd_cases y).2 (.inl hit))
  refine hk.testJump hc.sound hM rfl (fun hzero => ?_) fun hzero f k hk => ?_
  · rw [hy, low_byte_eq_zero_iff] at hzero
    exact hstop ((isFieldEnd_cases y).2 (.inr hzero))
  rw [hy, ne_eq, low_byte_eq_zero_iff] at hzero
  have hfield : ¬ isFieldEnd y = true := fun hf => ((isFieldEnd_cases y).1 hf).elim miss hzero
  have htail := hs.tail (by simp_all [isFieldEnd, isLineEnd])
  -- the byte is used up, whatever it is
  refine hk.advance hc hM (htext ▸ htail.lt) fun f k hk => ?_
  set R₁ := Function.update (Function.update R .rax y.toNat) g.target.frame.text
    (Function.update R .rax y.toNat g.target.frame.text + 1) with hR₁
  have htext₁ : R₁ g.target.frame.text = R g.target.frame.text + 1 := by
    rw [hR₁, Function.update_self, htext]
  have hy₁ : R₁ .rax = y.toNat := by rw [hR₁, Function.update_of_ne hrax.symm, hy]
  have hshow₂ : g.Shows st R₁ M := hshow₁.update (text_mem_volatile _)
  have hlimit₁ : R₁ g.target.frame.text + more.length = limit := by
    rw [htext₁, ← hlimit, List.length_cons]
    omega
  refine Lies.jumpOn [46, 32] hk rfl hc hM hy₁ (fun hit f => ?_) fun miss f k hk => ?_
  · rw [hend]
    refine after _ f _ ?_
    have hblank : y = 46 ∨ y = 32 := by simpa using hit
    simp only [Line.readStep, hfield, hblank, ↓reduceIte]
    exact ⟨hshow₂, htext₁ ▸ htail, hlimit₁⟩
  · have hstate : R₁ g.target.frame.state = g.state := hshow₂.stateRegister
    have hin : R₁ g.target.frame.state + o < g.site.guard.space := by
      have := hg.state_le
      omega
    have howns := hg.owns_state o ho
    have hsize := hg.size_lt
    refine hk.next hc.sound hM ⟨by decide, by simp [Width.Holds]⟩ ?_ fun k _ hk => ?_
    · rintro _ ⟨⟩
      exact fits_pointer (by omega)
    · obtain ⟨f', hf'⟩ :=
        @execute_orByte R₁ f M g.target.frame.state g.site.guard g.site.place o mask hin
        (hstate ▸ howns.1) (hstate ▸ howns.2) k
      refine ⟨_, hf', ?_⟩
      have hk := hk.mark_eq.2.nil_eq
      subst hk
      refine after _ f' _ ?_
      have hblank : ¬ (y = 46 ∨ y = 32) := by simpa using miss
      simp only [Line.readStep, hfield, hblank, ↓reduceIte, hstate]
      exact ⟨hshow₂.setMask ho, htext₁ ▸ htail, hlimit₁⟩

/-- The value of an axis goes into its bytes of the state. -/
theorem Shows.setAxis {o : ℕ} {v : Int16} (h : g.Shows st R M) (ho : o + 2 ≤ g.size) :
    g.Shows (Line.setAxis st o v) R
      (X86.splice M (g.state + o) (Bytes.littleEndian 2 v.toUInt16.toNat)) :=
  .of_stored h.registers (h.stored.setAxis ho)

/-- An axis is read. -/
theorem axis_run {i o : ℕ} (hg : g.Ready)
    (h : Lies g.site a (g.target.deserializeStep i (.axis o)) b) (ho : o + 2 ≤ g.size)
    (hat : g.At limit st text R M)
    (after : ∀ R' f M', g.At limit (Line.readStep st text (.axis o)).1
      (Line.readStep st text (.axis o)).2 R' M' → Eventually g.site.guard q ⟨R', f, M', b⟩) :
    Eventually g.site.guard q ⟨R, f, M, a⟩ := by
  obtain ⟨hshow, hs, hlimit⟩ := hat
  obtain ⟨e, hparse⟩ := hg.parseAxis
  have hc := hg.fitting
  refine call_run (e := e) hg h hshow fun R₁ M₁ htext hM₁ back => ?_
  refine parseAxis_run hc hparse hM₁ (htext ▸ hs) fun R₂ f k hk hkept hvalue hs₂ hlimit₂ => ?_
  refine back R₂ f k hk hkept fun R₃ M₃ k hshow₃ hsame hk => ?_
  have hstate : R₃ g.target.frame.state = g.state := hshow₃.stateRegister
  have hbounds := hg.state_le
  have hsize := hg.size_lt
  have hword : Width.size .word = 2 := rfl
  have hspan : Width.span .word = 2 ^ 16 := by decide
  refine hk.next hc.sound (hshow₃.intact hg) trivial ?_ fun k _ hk => ?_
  · rintro _ ⟨⟩
    exact fits_pointer (by omega)
  · refine ⟨_, execute_store rfl (by omega) (fun i hi => ?_) k, ?_⟩
    · rw [hstate, Nat.add_assoc]
      exact (hg.owns_state (o + i) (by omega)).2
    · have hk := hk.nil_eq
      subst hk
      refine after _ f _ ?_
      rw [hstate, hword, hspan, hsame _ (rax_mem_volatile _), hvalue]
      refine ⟨hshow₃.setAxis ho, ?_, ?_⟩
      · rw [hsame _ (text_mem_volatile _)]
        exact hs₂
      · rw [hsame _ (text_mem_volatile _), ← hlimit, ← htext]
        exact hlimit₂

/-- A separator is skipped, with what stands before it. -/
theorem separator_run {i : ℕ} {s : Step} (hg : g.Ready) (hsep : s = .leadingPipe ∨ s = .pipe)
    (h : Lies g.site a (g.target.deserializeStep i s) b) (hat : g.At limit st text R M)
    (after : ∀ R' f M', g.At limit (Line.readStep st text s).1 (Line.readStep st text s).2 R' M' →
      Eventually g.site.guard q ⟨R', f, M', b⟩) :
    Eventually g.site.guard q ⟨R, f, M, a⟩ := by
  obtain ⟨hshow, hs, hlimit⟩ := hat
  obtain ⟨e, hskip⟩ := hg.skipField
  have hc := hg.fitting
  have hcall : Lies g.site a [.code (.call Mark.skipField.label)] b := by
    rcases hsep with rfl | rfl <;> exact h
  have hstep : Line.readStep st text s = (st, Line.skipField text) := by
    rcases hsep with rfl | rfl <;> rfl
  rw [hstep] at after
  refine call_run (e := e) hg hcall hshow fun R₁ M₁ htext hM₁ back => ?_
  refine skipField_run hc hskip hM₁ (htext ▸ hs) fun R₂ f k hk hkept hs₂ hlimit₂ => ?_
  refine back R₂ f k hk (hkept.mono (by simp [Target.volatile])) fun R₃ M₃ k hshow₃ hsame hk => ?_
  have hk := hk.nil_eq
  subst hk
  refine after _ f _ ⟨hshow₃, ?_, ?_⟩
  · rw [hsame _ (text_mem_volatile _)]
    exact hs₂
  · rw [hsame _ (text_mem_volatile _), ← hlimit, ← htext]
    exact hlimit₂

end Stage

end PortCodec.Program
