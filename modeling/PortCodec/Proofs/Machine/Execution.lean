import Mathlib.Data.Int.Notation
import Mathlib.Data.Nat.Notation
import Mathlib.Logic.Function.Basic
import PortCodec.X86.Execution

/-! Runs of the machine. What it does under a guard it also does under one that allows more, and it
changes memory only where the guard lets it. -/

namespace PortCodec.X86

namespace Machine

theorem set_eq (m : Machine) (w : Width) (r : Register) (v : ℕ) : m.set w r v =
    { m with registers := Function.update m.registers r (w.merge (m.registers r) v) } := by
  simp only [set, Machine.mk.injEq, and_true]
  exact funext fun s => (Function.update_apply ..).symm

end Machine

theorem poke_cons (space : ℕ) (memory : ℕ → UInt8) (a : ℕ) (b : UInt8) (bs : Bytes) :
    poke space memory a (b :: bs) =
      poke space (Function.update memory (a % space) b) (a + 1) bs := by
  have h : (fun x => if x = a % space then b else memory x) =
      Function.update memory (a % space) b := funext fun x => (Function.update_apply ..).symm
  simp only [poke, h]

/-- What is allowed under a guard is allowed under another, and both run the same code. -/
structure Guard.Within (g g' : Guard) : Prop where
  mode : g'.mode = g.mode
  executable : g'.executable = g.executable
  readable : ∀ x, g.readable x = true → g'.readable x = true
  writable : ∀ x, g.writable x = true → g'.writable x = true
  jumps : ∀ x, g.jumps x = true → g'.jumps x = true

section Within

variable {g g' : Guard} {place : ℤ → ℕ} {m m' : Machine} {w : Width} {a v : ℕ}

theorem Guard.Within.space (h : g.Within g') : g'.space = g.space := by
  rw [Guard.space, h.mode, Guard.space]

theorem Guard.Within.allows {q q' : ℕ → Bool} {n : ℕ} (h : g.Within g')
    (hq : ∀ x, q x = true → q' x = true) (ha : g.allows q a n = true) :
    g'.allows q' a n = true := by
  rw [Guard.allows, List.all_eq_true] at ha ⊢
  rw [h.space]
  exact fun i hi => hq _ (ha i hi)

namespace Machine

theorem load_within (h : g.Within g') (hload : m.load g w a = some v) :
    m.load g' w a = some v := by
  obtain ⟨hallows, hv⟩ := Option.ite_none_right_eq_some.1 hload
  rw [load, if_pos (h.allows h.readable hallows), h.space]
  exact hv

theorem store_within (h : g.Within g') (hstore : m.store g w a v = some m') :
    m.store g' w a v = some m' := by
  obtain ⟨hallows, hm⟩ := Option.ite_none_right_eq_some.1 hstore
  rw [store, if_pos (h.allows h.writable hallows), h.space]
  exact hm

theorem address_within (h : g.Within g') (m : Machine) (x : Memory) :
    m.address g' place x = m.address g place x := by
  simp only [address, h.mode, h.space]

theorem fetch_within {o : Operand} (h : g.Within g') (hfetch : m.fetch g place w o = some v) :
    m.fetch g' place w o = some v := by
  cases o with
  | register r => exact hfetch
  | memory x =>
    rw [fetch, address_within h]
    exact load_within h hfetch

theorem assign_within {o : Operand} (h : g.Within g') (hassign : m.assign g place w o v = some m') :
    m.assign g' place w o v = some m' := by
  cases o with
  | register r => exact hassign
  | memory x =>
    rw [assign, address_within h]
    exact store_within h hassign

theorem alu_within {op : Alu} {o : Operand} (h : g.Within g')
    (halu : m.alu g place op w o v = some m') : m.alu g' place op w o v = some m' := by
  obtain ⟨n, hfetch, hrest⟩ := Option.bind_eq_some_iff.1 halu
  obtain ⟨⟨result, flags⟩, happly, hrest⟩ := Option.bind_eq_some_iff.1 hrest
  refine Option.bind_eq_some_iff.2 ⟨n, fetch_within h hfetch, ?_⟩
  refine Option.bind_eq_some_iff.2 ⟨_, happly, ?_⟩
  cases result with
  | none => exact hrest
  | some r => exact assign_within h hrest

theorem pushed_within (h : g.Within g') (hpushed : m.pushed g v = some m') :
    m.pushed g' v = some m' := by
  rw [pushed, h.mode]
  exact store_within h hpushed

theorem popped_within {r : ℕ × Machine} (h : g.Within g') (hpopped : m.popped g = some r) :
    m.popped g' = some r := by
  obtain ⟨n, hload, hrest⟩ := Option.bind_eq_some_iff.1 hpopped
  rw [popped, h.mode]
  exact Option.bind_eq_some_iff.2 ⟨n, load_within h hload, hrest⟩

theorem execute_within {i : Instruction} (h : g.Within g')
    (hexecute : m.execute g place i = some m') : m.execute g' place i = some m' := by
  have haddress := fun x => @address_within g g' place h m x
  cases i with
  | mov w dst src =>
    obtain ⟨hplain, hassign⟩ := Option.ite_none_right_eq_some.1 hexecute
    exact Option.ite_none_right_eq_some.2 ⟨hplain, assign_within h hassign⟩
  | load w dst src =>
    obtain ⟨n, hload, hassign⟩ := Option.bind_eq_some_iff.1 hexecute
    rw [execute, haddress]
    exact Option.bind_eq_some_iff.2 ⟨n, load_within h hload, assign_within h hassign⟩
  | loadZero dst w src | loadSign dst w src =>
    obtain ⟨n, hload, hm⟩ := Option.bind_eq_some_iff.1 hexecute
    rw [execute, haddress]
    exact Option.bind_eq_some_iff.2 ⟨n, load_within h hload, hm⟩
  | movImmediate w dst v => exact assign_within h hexecute
  | alu op w dst src =>
    obtain ⟨hplain, halu⟩ := Option.ite_none_right_eq_some.1 hexecute
    exact Option.ite_none_right_eq_some.2 ⟨hplain, alu_within h halu⟩
  | aluImmediate op w dst v => exact alu_within h hexecute
  | testImmediate w a v =>
    obtain ⟨n, hfetch, hm⟩ := Option.bind_eq_some_iff.1 hexecute
    exact Option.bind_eq_some_iff.2 ⟨n, fetch_within h hfetch, hm⟩
  | push r =>
    rw [execute, h.mode]
    exact pushed_within h hexecute
  | pop r =>
    obtain ⟨n, hpopped, hm⟩ := Option.bind_eq_some_iff.1 hexecute
    rw [execute, h.mode]
    exact Option.bind_eq_some_iff.2 ⟨n, popped_within h hpopped, hm⟩
  | ret =>
    obtain ⟨n, hpopped, hm⟩ := Option.bind_eq_some_iff.1 hexecute
    exact Option.bind_eq_some_iff.2 ⟨n, popped_within h hpopped, hm⟩
  | call l =>
    obtain ⟨n, hpushed, hm⟩ := Option.bind_eq_some_iff.1 hexecute
    exact Option.bind_eq_some_iff.2 ⟨n, pushed_within h hpushed, hm⟩
  | jmpMemory x =>
    obtain ⟨hjumps, hload⟩ := Option.ite_none_right_eq_some.1 hexecute
    obtain ⟨n, hload, hm⟩ := Option.bind_eq_some_iff.1 hload
    rw [execute, haddress, h.mode]
    exact Option.ite_none_right_eq_some.2 ⟨h.jumps _ hjumps,
      Option.bind_eq_some_iff.2 ⟨n, load_within h hload, hm⟩⟩
  | lea dst src =>
    rw [execute, haddress, h.mode]
    exact hexecute
  -- the others look at registers and flags only
  | test | inc | dec | neg | div | shl | shr | imul | jmp | jmpShort | jcc | jccShort | address =>
    exact hexecute

theorem step_within (h : g.Within g') (hstep : m.step g = some m') : m.step g' = some m' := by
  have hwindow : m.window g' = m.window g := by rw [window, h.executable, h.space, window]
  obtain ⟨⟨i, rest⟩, hdecode, hexecute⟩ := Option.bind_eq_some_iff.1 hstep
  rw [step, hwindow, h.mode, h.space]
  exact Option.bind_eq_some_iff.2 ⟨_, hdecode, execute_within h hexecute⟩

end Machine

end Within

section Frame

variable {g : Guard} {place : ℤ → ℕ} {m m' : Machine} {w : Width} {a v x : ℕ}

theorem poke_of_forall {space : ℕ} {memory : ℕ → UInt8} {bs : Bytes}
    (h : ∀ i < bs.length, (a + i) % space ≠ x) : poke space memory a bs x = memory x := by
  induction bs generalizing memory a with
  | nil => rfl
  | cons b bs ih =>
    have hhead : a % space ≠ x := h 0 (by simp)
    rw [poke_cons, ih, Function.update_of_ne hhead.symm]
    intro i hi
    rw [Nat.add_assoc, Nat.add_comm 1]
    exact h (i + 1) (by simpa using hi)

namespace Machine

theorem store_frame (h : m.store g w a v = some m') (hx : g.writable x = false) :
    m'.memory x = m.memory x := by
  obtain ⟨hallows, hm⟩ := Option.ite_none_right_eq_some.1 h
  cases hm
  refine poke_of_forall fun i hi hx' => ?_
  rw [Bytes.littleEndian_length] at hi
  have := List.all_eq_true.1 hallows i (List.mem_range.2 hi)
  rw [hx', hx] at this
  cases this

theorem assign_frame {o : Operand} (h : m.assign g place w o v = some m')
    (hx : g.writable x = false) : m'.memory x = m.memory x := by
  cases o with
  | register r =>
    obtain ⟨-, hm⟩ := Option.ite_none_right_eq_some.1 h
    cases hm
    rfl
  | memory y => exact store_frame h hx

theorem alu_frame {op : Alu} {o : Operand} (h : m.alu g place op w o v = some m')
    (hx : g.writable x = false) : m'.memory x = m.memory x := by
  obtain ⟨n, -, hrest⟩ := Option.bind_eq_some_iff.1 h
  obtain ⟨⟨result, flags⟩, -, hrest⟩ := Option.bind_eq_some_iff.1 hrest
  cases result with
  | none =>
    cases hrest
    rfl
  | some r => exact assign_frame (m := { m with flags }) hrest hx

theorem pushed_frame (h : m.pushed g v = some m') (hx : g.writable x = false) :
    m'.memory x = m.memory x :=
  store_frame (m := m.set g.mode.pointer .rsp _) h hx

theorem popped_memory {r : ℕ × Machine} (h : m.popped g = some r) : r.2.memory = m.memory := by
  obtain ⟨n, -, hm⟩ := Option.bind_eq_some_iff.1 h
  cases hm
  rfl

theorem shift_memory {r : Register} {n : UInt8} {left : Bool} (h : m.shift w r n left = some m') :
    m'.memory = m.memory := by
  obtain ⟨-, hm⟩ := Option.ite_none_right_eq_some.1 h
  dsimp only at hm
  by_cases hn : n.toNat % (if w = .qword then 64 else 32) = 0
  · rw [if_pos hn] at hm
    cases hm
    rfl
  · rw [if_neg hn] at hm
    cases hm
    rfl

/-- Instructions change memory only where that is allowed. -/
theorem execute_frame {i : Instruction} (h : m.execute g place i = some m')
    (hx : g.writable x = false) : m'.memory x = m.memory x := by
  cases i with
  | mov w dst src =>
    obtain ⟨-, hassign⟩ := Option.ite_none_right_eq_some.1 h
    exact assign_frame hassign hx
  | load w dst src =>
    obtain ⟨n, -, hassign⟩ := Option.bind_eq_some_iff.1 h
    exact assign_frame hassign hx
  | movImmediate w dst v => exact assign_frame h hx
  | alu op w dst src =>
    obtain ⟨-, halu⟩ := Option.ite_none_right_eq_some.1 h
    exact alu_frame halu hx
  | aluImmediate op w dst v => exact alu_frame h hx
  | push r => exact pushed_frame h hx
  | call l =>
    obtain ⟨pushed, hpushed, hm⟩ := Option.bind_eq_some_iff.1 h
    cases hm
    exact (pushed_frame hpushed hx : pushed.memory _ = _)
  | pop r | ret =>
    obtain ⟨r, hpopped, hm⟩ := Option.bind_eq_some_iff.1 h
    cases hm
    exact congrFun (popped_memory hpopped) x
  | loadZero dst w src | loadSign dst w src | testImmediate w a v =>
    obtain ⟨n, -, hm⟩ := Option.bind_eq_some_iff.1 h
    cases hm
    rfl
  | test w a b =>
    obtain ⟨n, -, hm⟩ := Option.bind_eq_some_iff.1 h
    obtain ⟨n, -, hm⟩ := Option.bind_eq_some_iff.1 hm
    cases hm
    rfl
  | inc w r | dec w r | neg w r =>
    obtain ⟨-, hm⟩ := Option.ite_none_right_eq_some.1 h
    cases hm
    rfl
  | div w r =>
    obtain ⟨-, hm⟩ := Option.ite_none_right_eq_some.1 h
    obtain ⟨-, hm⟩ := Option.ite_none_left_eq_some.1 hm
    split at hm <;> cases hm <;> rfl
  | shl w r n | shr w r n => exact congrFun (shift_memory h) x
  | imul w dst src v =>
    obtain ⟨-, hm⟩ := Option.ite_none_left_eq_some.1 h
    cases hm
    rfl
  | lea dst src | jmp l | jmpShort l =>
    cases h
    rfl
  | jcc c l | jccShort c l =>
    obtain ⟨holds, -, hm⟩ := Option.bind_eq_some_iff.1 h
    split at hm <;> cases hm <;> rfl
  | jmpMemory y =>
    obtain ⟨-, hload⟩ := Option.ite_none_right_eq_some.1 h
    obtain ⟨n, -, hm⟩ := Option.bind_eq_some_iff.1 hload
    cases hm
    rfl
  | address l => cases h

theorem step_frame (h : m.step g = some m') (hx : g.writable x = false) :
    m'.memory x = m.memory x := by
  obtain ⟨⟨i, rest⟩, -, hexecute⟩ := Option.bind_eq_some_iff.1 h
  have hframe := execute_frame hexecute hx
  exact hframe

end Machine

end Frame

/-- The machine gets to a state with a property, without being stopped before. -/
inductive Eventually (g : Guard) (q : Machine → Prop) : Machine → Prop
  | now {m : Machine} (h : q m) : Eventually g q m
  | later {m m' : Machine} (h : m.step g = some m') (rest : Eventually g q m') : Eventually g q m

theorem Eventually.mono {g : Guard} {q q' : Machine → Prop} {m : Machine} (h : Eventually g q m)
    (hq : ∀ m', q m' → q' m') : Eventually g q' m := by
  induction h with
  | now h => exact .now (hq _ h)
  | later h _ ih => exact .later h ih

theorem Eventually.within {g g' : Guard} {q : Machine → Prop} {m : Machine}
    (h : Eventually g q m) (hg : g.Within g') : Eventually g' q m := by
  induction h with
  | now h => exact .now h
  | later h _ ih => exact .later (Machine.step_within hg h) ih

end PortCodec.X86
