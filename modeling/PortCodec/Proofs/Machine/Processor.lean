import PortCodec.Proofs.Machine.Memory
import PortCodec.X86.Processor

/-! Runs over segments. Code changes only what lies in segments that may be written, so settling a
machine changes nothing; hence a run gets to the address where it is to stop whenever the machine
does. -/

namespace PortCodec.X86

section Segments

variable {mode : Mode} {segments : List Segment} {s : Segment} {m m' : Machine} {x : ℕ}

theorem Segment.contains_iff : s.contains x = true ↔ s.start ≤ x ∧ x < s.start + s.bytes.size := by
  simp [contains]

theorem Segment.contains_gathered (memory : ℕ → UInt8) (s : Segment) :
    (s.gathered memory).contains x = s.contains x := by
  unfold gathered
  split_ifs <;> simp [contains]

theorem Segment.byte_gathered (h : s.contains x = true) (hs : s.access = .write) :
    (s.gathered m.memory).byte x = m.memory x := by
  obtain ⟨hle, hlt⟩ := contains_iff.1 h
  have hi : x - s.start < s.bytes.size := by omega
  have hx : s.start + (x - s.start) = x := by omega
  simp [gathered, hs, byte, Array.getD, hi, hx]

theorem segmentAt?_gathered (memory : ℕ → UInt8) (segments : List Segment) (x : ℕ) :
    segmentAt? (segments.map (·.gathered memory)) x =
      (segmentAt? segments x).map (·.gathered memory) := by
  have hcontains : (fun s => s.contains x) ∘ Segment.gathered memory = fun s => s.contains x :=
    funext (Segment.contains_gathered memory)
  rw [segmentAt?, List.find?_map, hcontains, segmentAt?]

theorem contains_of_segmentAt? (h : segmentAt? segments x = some s) : s.contains x = true :=
  List.find?_some (p := fun s : Segment => s.contains x) h

def Segment.span (s : Segment) : Span := ⟨s.start, s.bytes.size⟩

theorem Segment.contains_span (s : Segment) (x : ℕ) : s.span.contains x = s.contains x := rfl

/-- Where segments do not overlap, an address has no other segment than the one that it is in. -/
theorem segmentAt?_eq_some (h : (segments.map Segment.span).Pairwise Span.Apart)
    (hs : s ∈ segments) (hx : s.contains x = true) : segmentAt? segments x = some s := by
  induction segments with
  | nil => cases hs
  | cons t rest ih =>
    obtain ⟨ht, hrest⟩ := List.pairwise_cons.1 h
    rcases List.mem_cons.1 hs with rfl | hs
    · exact List.find?_cons_of_pos hx
    · have hout : t.contains x = false :=
        (ht s.span (List.mem_map_of_mem hs)).symm.contains_eq_false hx
      exact (List.find?_cons_of_neg (by simp [hout])).trans (ih hrest hs)

theorem lays_memoryOf (h : (segments.map Segment.span).Pairwise Span.Apart) (hs : s ∈ segments) :
    Lays (memoryOf segments) s.start s.bytes.toList := by
  intro i hi
  rw [Array.length_toList] at hi
  have hx : s.contains (s.start + i) = true := Segment.contains_iff.2 ⟨by omega, by omega⟩
  rw [memoryOf, segmentAt?_eq_some h hs hx]
  simp [Segment.byte, Bytes.byteAt, Array.getD, hi]

/-- What may not be written is as it was. -/
def Machine.Intact (segments : List Segment) (m : Machine) : Prop :=
  ∀ x, (segmentAt? segments x).any (·.access = .write) = false → m.memory x = memoryOf segments x

theorem Machine.Intact.step (h : m.Intact segments)
    (hstep : m.step (.of mode segments) = some m') : m'.Intact segments := by
  intro x hx
  rw [step_frame hstep hx, h x hx]

/-- A settled machine is the same machine. -/
theorem Machine.Intact.settled (h : m.Intact segments) : m.settled segments = m := by
  have hregisters : (m.settled segments).registers = m.registers := by
    funext r
    simp [Machine.settled]
  have hmemory : (m.settled segments).memory = m.memory := by
    funext x
    have hx := h x
    simp only [Machine.settled, memoryOf, segmentAt?_gathered]
    cases hs : segmentAt? segments x with
    | none =>
      rw [hx (by simp [hs]), memoryOf, hs]
      rfl
    | some s =>
      have hcontains : s.contains x = true := contains_of_segmentAt? hs
      by_cases hw : s.access = .write
      · exact Segment.byte_gathered hcontains hw
      · rw [hx (by simp [hs, hw]), memoryOf, hs]
        simp [Segment.gathered, hw]
  exact Machine.ext hregisters (by simp only [Machine.settled]) hmemory
    (by simp only [Machine.settled])

theorem Machine.intact_of_memory_eq (h : m.memory = memoryOf segments) : m.Intact segments :=
  fun x _ => congrFun h x

end Segments

section Runs

variable {g : Guard} {mode : Mode} {segments : List Segment} {stop left : ℕ} {m m' : Machine}
  {q : Machine → Prop}

theorem Machine.runTo_zero (h : m.Intact segments) :
    m.runTo g segments stop 0 = m.runTo g segments stop (63 + 1) := by
  rw [runTo, h.settled]
  rfl

theorem Machine.runTo_of_next (h : m.Intact segments) (hnext : m.next = stop) :
    m.runTo g segments stop left = some m := by
  cases left with
  | zero => rw [runTo_zero h, runTo, if_pos hnext]
  | succ left => rw [runTo, if_pos hnext]

theorem Machine.runTo_of_step (h : m.Intact segments) (hnext : m.next ≠ stop)
    (hstep : m.step g = some m') (left : ℕ) :
    ∃ left', m.runTo g segments stop left = m'.runTo g segments stop left' := by
  cases left with
  | zero => exact ⟨63, by rw [runTo_zero h, runTo, if_neg hnext, hstep]⟩
  | succ left => exact ⟨left, by rw [runTo, if_neg hnext, hstep]⟩

/-- No machine goes on where no code is. -/
theorem Machine.step_eq_none (hnext : m.next < g.space) (h : g.executable m.next = false) :
    m.step g = none := by
  have hwindow : m.window g = [] := by
    rw [window, List.range_succ_eq_map]
    simp [Nat.mod_eq_of_lt hnext, h]
  rw [step, hwindow]
  rfl

/-- A machine that gets to the address where a run stops is found there by the run. -/
theorem Eventually.runTo (h : Eventually (.of mode segments) q m) (hq : ∀ m', q m' → m'.next = stop)
    (hspace : stop < (Guard.of mode segments).space)
    (hstop : (Guard.of mode segments).executable stop = false) (hm : m.Intact segments) :
    ∃ m', m.runTo (.of mode segments) segments stop left = some m' ∧ q m' := by
  induction h generalizing left with
  | @now m h => exact ⟨m, Machine.runTo_of_next hm (hq m h), h⟩
  | @later m m' hstep _ ih =>
    have hnext : m.next ≠ stop := by
      rintro rfl
      rw [Machine.step_eq_none hspace hstop] at hstep
      cases hstep
    obtain ⟨left', hrun⟩ := Machine.runTo_of_step hm hnext hstep left
    rw [hrun]
    exact ih (hm.step hstep)

theorem Machine.slice_eq {a : ℕ} {bs : Bytes} (h : Lays m.memory a bs) :
    m.slice a bs.length = bs := by
  refine List.ext_getElem (by simp [slice]) fun i _ hi => ?_
  simp [slice, h i hi, Bytes.byteAt, hi]

end Runs

end PortCodec.X86
