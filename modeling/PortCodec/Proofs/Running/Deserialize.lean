import PortCodec.Proofs.Running.Frame
import PortCodec.Proofs.Running.Reading

/-! A whole call of the routine that reads lines. It returns, with the state and the count that the
reader of lines gives, and nothing has changed but that state and the stack below the return
address. -/

namespace PortCodec

namespace Program

open X86

/-- A routine inside code that lies in memory. -/
theorem Lies.routine {c : Site} {a b : ℕ} {items routine : List Item} {m : Mark}
    (h : Lies c a items b) (hm : .mark m :: routine <:+: items) :
    ∃ e, Lies c (c.place m.label) (.mark m :: routine) e := by
  obtain ⟨before, behind, rfl⟩ := hm
  obtain ⟨_, h, -⟩ := h.append
  obtain ⟨_, -, h⟩ := h.append
  rw [h.mark_eq.1]
  exact ⟨_, h⟩

namespace Call

variable {k : Call} {state line : ℕ} {text st : Bytes} {R : Register → ℕ}
  {M : ℕ → UInt8} {f : Flags}
  {q : Machine → Prop} {a b : ℕ}

def size (k : Call) : ℕ := k.target.layout.storageSize

/-- The bytes of stack that reading needs: for saved registers, and to call a part. -/
def depth (k : Call) : ℕ := k.saved + k.site.word

/-- A call to read a line: state and stack can be used and are apart, and the line can be read. -/
structure Reads (k : Call) (state line : ℕ) (text : Bytes) : Prop where
  framed : k.Framed 3 k.depth
  size_lt : k.size < 2 ^ 31
  state_le : state + k.size ≤ k.site.guard.space
  owns_state : k.site.Owns state k.size
  apart : state + k.size ≤ k.top - k.depth ∨ k.top ≤ state
  passes_state : Passes k.site k.target.convention (k.enters .deserialize) 1 state
  passes_line : Passes k.site k.target.convention (k.enters .deserialize) 2 line
  spells : k.site.Spells line text

/-- The call has returned a count and left a state. -/
structure Returned (k : Call) (state : ℕ) (count : ℤ) (st : Bytes) (m : Machine) : Prop where
  next : m.next = k.back
  stackPointer : m.registers .rsp = k.top + k.site.word
  saved : ∀ r ∈ k.target.convention.saved,
    m.registers r % k.site.guard.space = k.registers r % k.site.guard.space
  result : m.registers .rax = k.target.pointer.ofInt count
  stored : ∀ i < k.size, m.memory (state + i) = st.byteAt i
  others : ∀ x, x < state ∨ state + k.size ≤ x → x < k.top - k.depth ∨ k.top ≤ x →
    m.memory x = k.site.memory x

def stage (k : Call) (R : Register → ℕ) (M : ℕ → UInt8) : Stage := ⟨k.site, k.target, R, M⟩

theorem Reads.ready (hk : k.Reads state line text) (hin : k.Entered state line R M) :
    (k.stage R M).Ready := by
  have hlow := hk.framed.low
  have hhigh := hk.framed.high
  have hdepth : k.depth = k.saved + k.site.word := rfl
  have hstate := hin.state
  have hsp := hin.stackPointer
  obtain ⟨a, b, hcode⟩ := hk.framed.code
  exact {
    fitting := hk.framed.fitting
    intact := hin.intact
    size_lt := hk.size_lt
    state_le := by
      change R k.target.frame.state + k.size ≤ _
      rw [hstate]
      exact hk.state_le
    owns_state := by
      change k.site.Owns (R k.target.frame.state) k.size
      rw [hstate]
      exact hk.owns_state
    word_le := by
      change k.site.word ≤ R .rsp
      omega
    top_lt := by
      change R .rsp < k.site.guard.space
      omega
    owns_top := by
      change k.site.Owns (R .rsp - k.site.word) k.site.word
      intro i hi
      have := hk.framed.owns_stack i (by omega)
      rwa [show k.top - k.depth + i = R .rsp - k.site.word + i by omega] at this
    apart := by
      change R k.target.frame.state + k.size ≤ R .rsp - k.site.word ∨
        R .rsp ≤ R k.target.frame.state
      have := hk.apart
      omega
    parseAxis := hcode.routine (Target.parseAxis_infix _)
    skipField := hcode.routine (Target.skipField_infix _) }

/-- A register that a convention saves is saved by the routine too, or left alone. -/
theorem saved_cases {r : Register} (hc : k.target.convention ∈ Convention.all)
    (hr : r ∈ k.target.convention.saved) : r ∈ k.target.frame.saved ∨
      r ∉ .rsp :: k.target.frame.saved ∧ r ∉ k.target.volatile ∧
        r ∉ [.rsp, k.target.frame.state, k.target.frame.text, k.target.frame.start] := by
  have h : ∀ c ∈ Convention.all, ∀ r ∈ c.saved, r ∈ (Target.bare c).frame.saved ∨
      r ∉ .rsp :: (Target.bare c).frame.saved ∧ r ∉ (Target.bare c).volatile ∧
        r ∉ [.rsp, (Target.bare c).frame.state, (Target.bare c).frame.text,
          (Target.bare c).frame.start] := by decide
  exact h _ hc r hr

/-- The way out, behind the last step. -/
theorem finished_run {R' : Register → ℕ} {M' : ℕ → UInt8} {count : ℤ} (hk : k.Reads state line text)
    (h : Lies k.site a k.target.leave b) (hin : k.Entered state line R M)
    (hshow : (k.stage R M).Shows st R' M') (hrax : R' .rax = k.target.pointer.ofInt count) :
    Eventually k.site.guard (k.Returned state count st) ⟨R', f, M', a⟩ := by
  have hlow := hk.framed.low
  have hapart := hk.apart
  have hdepth : k.depth = k.saved + k.site.word := rfl
  have hstart : (k.stage R M).state = state := hin.state
  have htop : (k.stage R M).top = k.top - k.saved := hin.stackPointer
  have hword : (k.stage R M).site.word = k.site.word := rfl
  have hsize : (k.stage R M).size = k.size := rfl
  have hkeep (x : ℕ) (hx : x < state ∨ state + k.size ≤ x)
      (hx' : x < k.top - k.depth ∨ k.top - k.saved ≤ x) : M' x = M x :=
    hshow.others x (by rwa [hstart, hsize]) (by rw [htop, hword]; omega)
  have hsaved : Saved k.site M' k.registers k.top k.target.frame.saved := by
    refine hin.saved.congr (show k.saved ≤ k.top by omega) (fun x hx hlt => ?_) fun _ _ => rfl
    have hx : k.top - k.saved ≤ x := hx
    exact hkeep x (by omega) (.inr hx)
  refine return_run hk.framed h (hshow.intact (hk.ready hin)) (hshow.stackPointer.trans htop) hsaved
    (fun r hr hframe => ?_) fun m hleft hresult hmem =>
      ⟨hleft.next, hleft.stackPointer, hleft.saved, hresult.trans hrax, fun i hi => ?_,
        fun x hx hx' => ?_⟩
  · obtain hmem | ⟨-, hvolatile, hline⟩ := saved_cases hk.framed.convention hr
    · exact absurd hmem hframe
    · exact congrArg (· % _) ((hshow.registers r hvolatile).trans (hin.kept r hline))
  · rw [← hstart, hmem]
    exact hshow.state i hi
  · rw [hmem, hkeep x hx (by omega), hin.others x (by omega)]

theorem deserializeItems_eq {t : Target} {body : List Step} {last : Step}
    (h : t.layout.program = body ++ [last]) : t.deserializeItems =
    t.entry .deserialize ++ (t.arguments [t.frame.state, t.frame.text] ++
      (.code (.mov t.pointer (.register t.frame.start) t.frame.text) :: (t.clearState ++
        ((body.zipIdx.flatMap fun (s, i) => t.deserializeStep i s) ++
          (t.deserializeStep body.length last ++ t.leave))))) := by
  simp [Target.deserializeItems, h, List.zipIdx_append]

/-- Reading a line returns, with the count and the state of the reader of lines. -/
theorem deserialize_run (hk : k.Reads state line text) (hl : k.target.layout.Proper)
    (hlen : k.size ≤ st.length) (hst : ∀ i < k.size, k.site.memory (state + i) = st.byteAt i) :
    Eventually k.site.guard
      (k.Returned state (k.target.layout.deserialize st text).1
        (k.target.layout.deserialize st text).2)
      (k.enters .deserialize) := by
  obtain ⟨body, last, hprogram, hlast, hbody⟩ := hl
  obtain ⟨a, b, hcode⟩ := hk.framed.code
  obtain ⟨e, hroutine⟩ := hcode.routine (Target.deserialize_infix _)
  have hroutine : Lies k.site (k.site.place Mark.deserialize.label) k.target.deserializeItems e :=
    hroutine
  rw [deserializeItems_eq hprogram] at hroutine
  have hcount := Layout.deserialize_of_program hprogram hlast (fun s hs => (hbody s hs).1) st text
  have hapart := hk.apart
  have hlow := hk.framed.low
  have hdepth : k.depth = k.saved + k.site.word := rfl
  refine enter_run hk.framed hroutine hk.passes_state hk.passes_line hk.spells.lt
    fun R f M l hin hl => ?_
  have hready := hk.ready hin
  have hshow : (k.stage R M).Shows st R M := by
    refine ⟨.refl _ R, hlen, fun i hi => ?_, fun _ _ _ => rfl⟩
    have hi : i < k.size := hi
    change M (R k.target.frame.state + i) = _
    rw [hin.state, hin.others _ (by omega), hst i hi]
  refine Stage.clearState_run hready hl hshow fun M₁ l hshow₁ hl => ?_
  have hat : (k.stage R M).At (line + text.length)
      (Line.clearFirst (k.stage R M).size st) text R M₁ :=
    ⟨hshow₁, hin.text.symm ▸ hk.spells, congrArg (· + text.length) hin.text⟩
  refine Stage.steps_run hready (fun p hp => hbody p.1 (List.fst_mem_of_mem_zipIdx hp)) hl hat
    fun R₂ f M₂ l hat₂ hl => ?_
  rw [List.zipIdx_map_fst] at hat₂
  set r := Line.readSteps (Line.clearFirst (k.stage R M).size st) text body with hr
  have hcount : k.target.layout.deserialize st text =
    (if last = .finishEmpty then Layout.blank else text.length - r.2.length, r.1) := hcount
  have hlimit : R₂ k.target.frame.text + r.2.length = line + text.length := hat₂.limit
  have hle : r.2.length ≤ text.length := (Line.readSteps_suffix _ _ _).length_le
  have hlt : R₂ k.target.frame.text < k.site.guard.space := hat₂.spells.lt
  have hstart : (k.stage R M).registers k.target.frame.start = line := hin.start
  rw [hcount]
  cases last with
  | finish =>
    refine Stage.finish_run hready hl hat₂ ?_ fun R₃ f l hshow₃ hrax hl =>
      finished_run hk hl hin hshow₃ ?_
    · change (k.stage R M).registers k.target.frame.start ≤ R₂ k.target.frame.text
      omega
    · have hdiff : R₂ k.target.frame.text - (k.stage R M).registers k.target.frame.start =
          text.length - r.2.length := by omega
      have hspan : text.length - r.2.length < k.target.pointer.span := by
        rw [← hk.framed.fitting.space]
        omega
      rw [if_neg (by simp), ← Nat.cast_sub hle, Width.ofInt_natCast hspan, ← hdiff]
      exact hrax
  | finishEmpty =>
    exact Stage.finishEmpty_run hready hl hat₂.shows fun R₃ f l hshow₃ hrax hl =>
      finished_run hk hl hin hshow₃ hrax
  | _ => cases hlast

end Call

end Program

end PortCodec
