import PortCodec.Proofs.Running.Deserialize
import PortCodec.Proofs.Running.Writing

/-! A whole call of the routine that writes lines. It returns, with the length of the line, and
nothing has changed but the line and the stack below the return address. -/

namespace PortCodec

namespace Program

open X86

namespace Call

variable {k : Call} {state out n depth : ℕ} {st : Bytes} {R : Register → ℕ}
  {M : ℕ → UInt8} {f : Flags}
  {q : Machine → Prop} {a b : ℕ}

/-- The bytes of stack that writing needs: for saved registers, and for an axis. -/
def reach (k : Call) : ℕ := k.saved + 8 * k.site.word

/-- A call to write a line of `n` bytes: the state can be read, the line and the stack written, and
they are apart. -/
structure Writes (k : Call) (state out : ℕ) (st : Bytes) (n : ℕ) : Prop where
  framed : k.Framed 3 k.reach
  size_lt : k.size < 2 ^ 31
  state_le : state + k.size ≤ k.site.guard.space
  reads_state : ∀ i < k.size, k.site.guard.readable (state + i) = true
  keeps_state : ∀ i < k.size, k.site.guard.writable (state + i) = false
  shows_state : ∀ i < k.size, k.site.memory (state + i) = st.byteAt i
  out_lt : out + n < k.site.guard.space
  writes_out : ∀ i < n, k.site.guard.writable (out + i) = true
  apart : out + n ≤ k.top - k.reach ∨ k.top ≤ out
  passes_state : Passes k.site k.target.convention (k.enters .serialize) 1 state
  passes_out : Passes k.site k.target.convention (k.enters .serialize) 2 out

structure Written (k : Call) (out : ℕ) (text : Bytes) (m : Machine) : Prop where
  left : k.Left m
  result : m.registers .rax = text.length
  lays : Lays m.memory out text
  others : ∀ x, x < out ∨ out + text.length ≤ x → x < k.top - k.reach ∨ k.top ≤ x →
    m.memory x = k.site.memory x

theorem Writes.ready (hk : k.Writes state out st n) (hin : k.Entered state out R M) :
    (k.stage R M).ReadyToWrite st out n := by
  have hlow := hk.framed.low
  have hhigh := hk.framed.high
  have hapart := hk.apart
  have hreach : k.reach = k.saved + (k.stage R M).reach := rfl
  have hstate : (k.stage R M).state = state := hin.state
  have htop : (k.stage R M).top = k.top - k.saved := hin.stackPointer
  obtain ⟨a, b, hcode⟩ := hk.framed.code
  exact {
    fitting := hk.framed.fitting
    intact := hin.intact
    size_lt := hk.size_lt
    state_le := by rw [hstate]; exact hk.state_le
    reads_state := by rw [hstate]; exact hk.reads_state
    keeps_state := by rw [hstate]; exact hk.keeps_state
    shows_state := by rw [hstate]; exact hk.shows_state
    reach_le := by omega
    top_lt := by
      change (k.stage R M).top < k.site.guard.space
      omega
    owns_stack := by
      intro i hi
      have := hk.framed.owns_stack i (by omega)
      rwa [show k.top - k.reach + i = (k.stage R M).top - (k.stage R M).reach + i by omega] at this
    out_lt := hk.out_lt
    writes_out := hk.writes_out
    apart := by omega
    formatAxis := hcode.routine (Target.formatAxis_infix _) }

/-- A register that a convention saves is saved by the routine too, or the cursor's, or left
alone. -/
theorem kept_cases {r : Register} (hc : k.target.convention ∈ Convention.all)
    (hr : r ∈ k.target.convention.saved) (hframe : r ∉ k.target.frame.saved) :
    r ∉ [.rsp, k.target.frame.state, k.target.frame.text, k.target.frame.start] ∧
      (r = k.target.frame.cursor ∨ r ∉ k.target.scratch) := by
  obtain hmem | ⟨-, hvolatile, hline⟩ := saved_cases hc hr
  · exact absurd hmem hframe
  · by_cases hcursor : r = k.target.frame.cursor
    · exact ⟨hline, .inl hcursor⟩
    · exact ⟨hline, .inr (by simp [Target.scratch, hcursor, hvolatile])⟩

/-- The way out, behind the last step. -/
theorem written_run {R' : Register → ℕ} {M' : ℕ → UInt8} {text : Bytes}
    (hk : k.Writes state out st n)
    (h : Lies k.site a k.target.leave b) (hin : k.Entered state out R M)
    (hw : (k.stage R M).Wrote out text R' M') (hn : text.length ≤ n)
    (hrax : R' .rax = text.length) :
    Eventually k.site.guard (k.Written out text) ⟨R', f, M', a⟩ := by
  have hlow := hk.framed.low
  have hapart := hk.apart
  have hreach : k.reach = k.saved + (k.stage R M).reach := rfl
  have htop : (k.stage R M).top = k.top - k.saved := hin.stackPointer
  have hothers (x : ℕ) (hx : x < out ∨ out + text.length ≤ x)
      (hx' : x < k.top - k.reach ∨ k.top - k.saved ≤ x) : M' x = M x :=
    hw.drafted.others x hx (by omega)
  have hsaved : Saved k.site M' k.registers k.top k.target.frame.saved := by
    refine hin.saved.congr (show k.saved ≤ k.top by omega) (fun x hx hlt => ?_) fun _ _ => rfl
    have hx : k.top - k.saved ≤ x := hx
    exact hothers x (by omega) (.inr hx)
  refine return_run hk.framed h hw.intact (hw.stackPointer.trans htop) hsaved
    (fun r hr hframe => ?_)
    fun m hleft hresult hmem => ⟨hleft, hresult.trans hrax, ?_, fun x hx hx' => ?_⟩
  · obtain ⟨hline, rfl | hscratch⟩ := kept_cases hk.framed.convention hr hframe
    · exact hw.cursor.trans (congrArg (· % _) (hin.kept _ hline))
    · exact congrArg (· % _) ((hw.registers r hscratch).trans (hin.kept r hline))
  · rw [hmem]
    exact hw.drafted.lays
  · rw [hmem, hothers x hx (by omega), hin.others x (by omega)]

theorem serializeItems_eq {t : Target} {body : List Step} {last : Step}
    (h : t.layout.program = body ++ [last]) : t.serializeItems =
    t.entry .serialize ++ (t.arguments [t.frame.state, t.frame.text] ++
      (.code (.mov t.pointer (.register t.frame.start) t.frame.text) ::
        ((body.zipIdx.flatMap fun (s, i) => t.serializeStep i s) ++
          (t.serializeStep body.length last ++ t.leave)))) := by
  simp [Target.serializeItems, h, List.zipIdx_append]

/-- Writing a line returns, with the line in memory and its length as result. -/
theorem serialize_run (hl : k.target.layout.Proper)
    (hempty : .finishEmpty ∈ k.target.layout.program → k.target.layout.serialize st = [])
    (hk : k.Writes state out st (k.target.layout.serialize st).length) :
    Eventually k.site.guard (k.Written out (k.target.layout.serialize st))
      (k.enters .serialize) := by
  obtain ⟨body, last, hprogram, hlast, hbody⟩ := hl
  obtain ⟨a, b, hcode⟩ := hk.framed.code
  obtain ⟨e, hroutine⟩ := hcode.routine (Target.serialize_infix _)
  have hroutine : Lies k.site (k.site.place Mark.serialize.label) k.target.serializeItems e :=
    hroutine
  rw [serializeItems_eq hprogram] at hroutine
  have hout := hk.out_lt
  refine enter_run hk.framed hroutine hk.passes_state hk.passes_out (by omega)
    fun R f M l hin hl => ?_
  have hready := hk.ready hin
  have htext := Layout.serialize_of_program hprogram hlast st
  have hstart : (k.stage R M).Wrote out [] R M :=
    ⟨.refl _ R, rfl, hin.text, hin.intact, .of_stack fun _ _ => rfl⟩
  have hbodytext : [] ++ (body.zipIdx.map (·.1)).flatMap (Line.stepText st) =
      k.target.layout.serialize st := by rw [List.zipIdx_map_fst, List.nil_append, htext]
  refine Stage.writeSteps_run hready (fun p hp => hbody p.1 (List.fst_mem_of_mem_zipIdx hp)) hl
    hstart (by rw [hbodytext]) fun R₁ f M₁ l hw hl => ?_
  rw [hbodytext] at hw
  refine Stage.writeFinish_run hready hlast (fun hlast => hempty ?_) hl hw le_rfl hin.start
    fun R₂ f l hw₂ hrax hl => written_run hk hl hin hw₂ le_rfl hrax
  rw [hprogram, hlast]
  simp

end Call

end Program

end PortCodec
