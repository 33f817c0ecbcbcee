import PortCodec.Proofs.MoveOrder
import PortCodec.Proofs.Running.Frame

/-! Arguments in the registers that a routine wants them in, under any convention. Those in
registers are moved as if all at once, and those on the stack are loaded last, when no source is
needed any more. -/

namespace PortCodec.X86

variable {mode : Mode}

theorem Register.not_isExtended {r : Register} (h : r.existsIn .bits32 = true) :
    r.isExtended = false := by
  have hlow : r.number ≤ 7 := of_decide_eq_true h
  have hhigh : ¬ 8 ≤ r.number := by
    intro h8
    rw [UInt8.le_iff_toNat_le] at hlow h8
    exact absurd (h8.trans hlow) (by decide)
  simp [Register.isExtended, hhigh]

theorem Form.wholeBytes_register {f : Form} {r : Register} (h : f.fault? mode = none)
    (hop : f.operand = .register r) (himm : f.immediate = []) :
    ∃ bs, f.shape mode = .ok { head := bs } := by
  simp [Form.shape, h, Form.operandShape, hop, himm, Except.map]

theorem Form.wholeBytes_pointer {f : Form} {r : Register} {d : ℤ} (h : f.fault? mode = none)
    (hop : f.operand = .memory (.pointer r d)) (himm : f.immediate = []) :
    ∃ bs, f.shape mode = .ok { head := bs } := by
  obtain ⟨bs, hbs⟩ : ∃ bs, basedOperand f.field.low (.pointer r d) = .ok bs := by
    simp only [basedOperand, Memory.pointer]
    split_ifs <;> exact ⟨_, rfl⟩
  have hlabel : (Memory.pointer r d).label = none := rfl
  simp only [Form.shape, h, Form.operandShape, hop, hlabel, hbs, himm, Except.map]
  exact ⟨_, rfl⟩

/-- An argument comes in a register, or on the stack at a distance that grows with what is
pushed. -/
theorem Convention.argument_eq (c : Convention) (i : ℕ) :
    (∃ r ∈ c.arguments, ∀ n, c.argument i n = .register r) ∨
    ∃ d, ∀ n, c.argument i n =
      .memory (.pointer .rsp ((d + n * c.mode.pointer.size).bmod (2 ^ 32))) := by
  unfold Convention.argument
  cases h : c.arguments[i]? with
  | some r => exact .inl ⟨r, List.mem_of_getElem? h, fun _ => rfl⟩
  | none =>
    refine .inr ⟨c.stackBase + (if c.homeSlots then (i : ℤ) else i - c.arguments.length) *
      c.mode.pointer.size, fun n => ?_⟩
    simp only [add_mul, add_assoc]

end PortCodec.X86

namespace PortCodec.Program

open X86

section Bytes

variable {mode : Mode} {is : List Instruction}

/-- Instructions of bytes that nobody fills in. -/
def WholeBytes (mode : Mode) (i : Instruction) : Prop :=
  (∃ bs, i.shape mode = .ok { head := bs }) ∧ ∀ x ∈ i.memory?, x.IsPlain

def bytesOf (mode : Mode) (is : List Instruction) : Bytes :=
  is.flatMap fun i => ((i.shape mode).toOption.getD { head := [] }).head

theorem bytesOf_cons {i : Instruction} {bs : Bytes} (h : i.shape mode = .ok { head := bs }) :
    bytesOf mode (i :: is) = bs ++ bytesOf mode is := by
  simp [bytesOf, h, Except.toOption]

/-- Instructions of whole bytes are emitted as these bytes. -/
theorem placeAll_wholeBytes {e : Emitter} (he : e.error = none)
    (h : ∀ i ∈ is, WholeBytes e.mode i) :
    placeAll e (is.map .code) =
      ({ e with assembler := e.assembler.bytes (bytesOf e.mode is) }, none) := by
  induction is generalizing e with
  | nil => simp [placeAll, bytesOf, Assembler.bytes]
  | cons i is ih =>
    obtain ⟨⟨bs, hs⟩, hplain⟩ := h i (by simp)
    have hemit : e.emit i = ({ e with assembler := e.assembler.bytes bs }, none) := by
      rw [Emitter.emit_eq he hs hplain]
      simp [Emitter.put, X86.Shape.raw, X86.Shape.fill, X86.Shape.room, X86.Shape.relocations,
        Assembler.bytes]
    rw [List.map_cons, placeAll]
    simp only [place, hemit]
    have hrest := @ih { e with assembler := e.assembler.bytes bs } he
      fun j hj => h j (List.mem_cons_of_mem i hj)
    rw [hrest, bytesOf_cons hs]
    simp [Assembler.bytes, Emitter.append_append]

/-- They lie where these bytes are. -/
theorem lies_of_wholeBytes {c : Site} {a : ℕ} (h : ∀ i ∈ is, WholeBytes c.guard.mode i)
    (hbytes : c.guard.Holds c.memory a (bytesOf c.guard.mode is)) :
    ∃ b, Lies c a (is.map .code) b ∧
      b % c.guard.space = (a + (bytesOf c.guard.mode is).length) % c.guard.space := by
  induction is generalizing a with
  | nil => exact ⟨a, .nil a, rfl⟩
  | cons i is ih =>
    obtain ⟨⟨bs, hs⟩, -⟩ := h i (by simp)
    rw [bytesOf_cons hs] at hbytes ⊢
    obtain ⟨hhere, hthere⟩ := hbytes.append
    obtain ⟨b, hb, hend⟩ := ih (fun j hj => h j (List.mem_cons_of_mem i hj)) hthere.mod
    have hroom : ([] : Bytes).length = X86.Shape.room { head := bs } := rfl
    refine ⟨b, .code hs hroom ?_ ?_ ?_, ?_⟩
    · simpa [X86.Shape.fill] using hhere
    · intro patch l hf
      cases hf
    · simpa [X86.Shape.size, X86.Shape.room] using hb
    · rw [hend, List.length_append, Nat.mod_add_mod, Nat.add_assoc]

/-- Bringing a value from a register or the stack takes whole bytes. -/
theorem bring_wholeBytes {p : Register × Operand} (hp : p.1.existsIn mode = true)
    (ho : (∃ s, p.2 = .register s ∧ s.existsIn mode = true) ∨
    ∃ d, p.2 = .memory (.pointer .rsp d)) :
    WholeBytes mode (bring mode.pointer p) := by
  have hw : mode.pointer = .qword → mode = .bits64 := by cases mode <;> simp [Mode.pointer]
  obtain ⟨r, o⟩ := p
  rcases ho with ⟨s, rfl, hs⟩ | ⟨d, rfl⟩
  · refine ⟨Form.wholeBytes_register (Form.fault?_eq_none ⟨?_, ?_, ?_⟩ hw) rfl rfl, ?_⟩
    · simp [Form.registers, hs, hp]
    · simp [Operand.memory?]
    · rintro rfl
      simp [Form.rexBits, Form.forcesRex, Register.not_isExtended hs,
        Register.not_isExtended hp, Mode.pointer]
    · simp [bring, Instruction.memory?, Operand.memory?]
  · refine ⟨Form.wholeBytes_pointer (Form.fault?_eq_none ⟨?_, ?_, ?_⟩ hw) rfl rfl, ?_⟩
    · simp [Form.registers, hp]
    · rintro x ⟨⟩
      cases mode <;> rfl
    · rintro rfl
      have hsp : Register.rsp.isExtended = false := rfl
      simp [Form.rexBits, Form.forcesRex, Register.not_isExtended hp, hsp,
        Mode.pointer, Memory.pointer]
    · simp [bring, Instruction.memory?, Memory.IsPlain, Memory.pointer]

end Bytes

section Arguments

variable {t : Target} {dsts : List Register} {ordered : List Move} {m : Move}
  {p : Register × Operand}

/-- The move of an argument, if it comes in a register other than its own. -/
def Target.moveOf (t : Target) (d : Register × ℕ) : Option Move :=
  match t.convention.argument d.2 t.frame.saved.length with
  | .register src => if src = d.1 then none else some ⟨d.1, src⟩
  | .memory _ => none

theorem argumentMoves_eq (t : Target) (dsts : List Register) :
    t.argumentMoves dsts = (dsts.zipIdx 1).filterMap t.moveOf := rfl

theorem moveOf_eq_some {d : Register × ℕ} : t.moveOf d = some m ↔
    d.1 = m.dst ∧ t.convention.argument d.2 t.frame.saved.length = .register m.src ∧
      m.src ≠ m.dst := by
  unfold Target.moveOf
  cases t.convention.argument d.2 t.frame.saved.length with
  | memory x => simp
  | register s =>
    obtain ⟨dst, src⟩ := m
    simp only [Option.ite_none_left_eq_some, Option.some.injEq, Move.mk.injEq,
      Operand.register.injEq]
    constructor
    · rintro ⟨hne, rfl, rfl⟩
      exact ⟨rfl, rfl, hne⟩
    · rintro ⟨rfl, rfl, hne⟩
      exact ⟨hne, rfl, rfl⟩

theorem mem_argumentMoves : m ∈ t.argumentMoves dsts ↔ ∃ i, (m.dst, i) ∈ dsts.zipIdx 1 ∧
    t.convention.argument i t.frame.saved.length = .register m.src ∧ m.src ≠ m.dst := by
  rw [argumentMoves_eq, List.mem_filterMap]
  constructor
  · rintro ⟨⟨r, i⟩, hmem, h⟩
    obtain ⟨rfl, hs, hne⟩ := moveOf_eq_some.1 h
    exact ⟨i, hmem, hs, hne⟩
  · rintro ⟨i, hmem, hs, hne⟩
    exact ⟨_, hmem, moveOf_eq_some.2 ⟨rfl, hs, hne⟩⟩

theorem order_argumentMoves (h : t.loadArguments dsts ≠ none) :
    ∃ ordered, Move.order (t.argumentMoves dsts).length (t.argumentMoves dsts) = some ordered := by
  rw [← Option.ne_none_iff_exists']
  intro hnone
  exact h (by simp [Target.loadArguments, hnone])

theorem brought_eq
    (h : Move.order (t.argumentMoves dsts).length (t.argumentMoves dsts) = some ordered) :
    t.brought dsts = ordered.map (fun m => (m.dst, .register m.src)) ++
      (dsts.zipIdx 1).filterMap fun d =>
        (t.convention.argument d.2 t.frame.saved.length).memory?.map fun x => (d.1, .memory x) := by
  simp only [Target.brought, h, Option.getD_some]
  refine congrArg _ (List.filterMap_congr fun d _ => ?_)
  cases t.convention.argument d.2 t.frame.saved.length <;> rfl

theorem memory?_eq_some {o : Operand} {x : Memory} : o.memory? = some x ↔ o = .memory x := by
  cases o <;> simp [Operand.memory?]

/-- What is brought is what does not come in its own register. -/
theorem mem_brought (h : t.loadArguments dsts ≠ none) : p ∈ t.brought dsts ↔ ∃ i,
    (p.1, i) ∈ dsts.zipIdx 1 ∧ t.convention.argument i t.frame.saved.length = p.2 ∧
      p.2 ≠ .register p.1 := by
  obtain ⟨ordered, horder⟩ := order_argumentMoves h
  have hperm := (Move.order_eq_some horder).1
  simp only [brought_eq horder, List.mem_append, List.mem_map, List.mem_filterMap,
    Option.map_eq_some_iff, memory?_eq_some]
  constructor
  · rintro (⟨m, hm, rfl⟩ | ⟨⟨r, i⟩, hmem, x, hx, rfl⟩)
    · obtain ⟨i, hmem, hs, hne⟩ := mem_argumentMoves.1 (hperm.subset hm)
      exact ⟨i, hmem, hs, by simpa using hne⟩
    · exact ⟨i, hmem, hx, by simp⟩
  · obtain ⟨r, o⟩ := p
    rintro ⟨i, hmem, hs, hne⟩
    cases o with
    | register s =>
      refine .inl ⟨⟨r, s⟩, hperm.symm.subset (mem_argumentMoves.2 ⟨i, hmem, hs, ?_⟩), rfl⟩
      simpa using hne
    | memory x => exact .inr ⟨_, hmem, x, hs, rfl⟩

/-- Wanted registers are named once. -/
theorem index_inj (hd : dsts.Nodup) {r : Register} {i j : ℕ} (hi : (r, i) ∈ dsts.zipIdx 1)
    (hj : (r, j) ∈ dsts.zipIdx 1) : i = j := by
  obtain ⟨hi1, hi⟩ := List.mk_mem_zipIdx_iff_le_and_getElem?_sub.1 hi
  obtain ⟨hj1, hj⟩ := List.mk_mem_zipIdx_iff_le_and_getElem?_sub.1 hj
  have heq := (List.getElem?_inj (List.getElem?_eq_some_iff.1 hi).1 hd).1 (hi.trans hj.symm)
  omega

theorem argument_avoids {c : Convention} {i : ℕ} {n : ℤ} {x : Memory}
    (h : c.argument i n = .memory x)
    {r : Register} (hr : r ≠ .rsp) : avoids r (.memory x) = true := by
  rcases c.argument_eq i with ⟨s, -, hs⟩ | ⟨d, hd⟩
  · rw [hs] at h
    cases h
  · rw [hd] at h
    cases h
    simp [avoids, Memory.pointer, hr.symm]

/-- Arguments are brought one by one to registers that no later one comes from. -/
theorem pairwise_brought (hd : dsts.Nodup) (hsp : .rsp ∉ dsts) (h : t.loadArguments dsts ≠ none) :
    (t.brought dsts).Pairwise fun p o => p.1 ≠ o.1 ∧ avoids p.1 o.2 = true := by
  obtain ⟨ordered, horder⟩ := order_argumentMoves h
  obtain ⟨hperm, hsources⟩ := Move.order_eq_some horder
  have hpairs : (dsts.zipIdx 1).Pairwise fun d e => d.1 ≠ e.1 := by
    rw [← List.pairwise_map, List.zipIdx_map_fst]
    exact hd
  have hne {r : Register} {i : ℕ} (hr : (r, i) ∈ dsts.zipIdx 1) : r ≠ .rsp := fun heq =>
    hsp (heq ▸ List.fst_mem_of_mem_zipIdx hr)
  have hmoves : ordered.Pairwise fun m o => m.dst ≠ o.dst := by
    rw [hperm.pairwise_iff fun hne => hne.symm, argumentMoves_eq, List.pairwise_filterMap]
    refine hpairs.imp fun hrs m hm o ho => ?_
    rwa [← (moveOf_eq_some.1 hm).1, ← (moveOf_eq_some.1 ho).1]
  rw [brought_eq horder, List.pairwise_append, List.pairwise_map, List.pairwise_filterMap]
  simp only [List.mem_map, List.mem_filterMap, Option.map_eq_some_iff, memory?_eq_some]
  refine ⟨?_, ?_, ?_⟩
  · refine (hmoves.and hsources).imp fun hne => ⟨hne.1, ?_⟩
    simpa [avoids] using hne.2
  · refine hpairs.imp_of_mem ?_
    rintro ⟨r, i⟩ ⟨s, j⟩ hr - hrs _ ⟨x, -, rfl⟩ _ ⟨y, hy, rfl⟩
    exact ⟨hrs, argument_avoids hy (hne hr)⟩
  · rintro _ ⟨m, hm, rfl⟩ _ ⟨⟨r, i⟩, hr, x, hx, rfl⟩
    obtain ⟨j, hj, hs, -⟩ := mem_argumentMoves.1 (hperm.subset hm)
    refine ⟨fun heq => ?_, argument_avoids hx (hne hj)⟩
    -- one register does not take an argument from a register and one from the stack
    obtain rfl : m.dst = r := heq
    obtain rfl := index_inj hd hj hr
    rw [hs] at hx
    cases hx

end Arguments

section Entry

variable {t : Target} {g : Guard} {m₀ m : Machine} {n i : ℕ} {dsts : List Register}

/-- A routine has saved its registers. The stack has grown by them, and the other registers and what
there is of `n` arguments on the stack are as at entry. -/
structure Target.Entered (t : Target) (g : Guard) (n : ℕ) (m₀ m : Machine) : Prop where
  stack : m₀.get t.pointer .rsp =
    (m.get t.pointer .rsp + t.frame.saved.length * t.pointer.size) % g.space
  registers : ∀ r ≠ .rsp, m.registers r = m₀.registers r
  passed : ∀ i ≤ n, ∀ x, t.convention.argument i 0 = .memory x → ∀ j < t.pointer.size,
    m.memory ((m₀.address g (fun _ => 0) x + j) % g.space) =
      m₀.memory ((m₀.address g (fun _ => 0) x + j) % g.space)

theorem address_pointer_eq (g : Guard) (place : ℤ → ℕ) (m : Machine) (r : Register) (d : ℤ) :
    m.address g place (.pointer r d) = ((m.get g.mode.pointer r + d) % g.space).toNat := by
  simp [Machine.address, Memory.pointer]

/-- Distances are kept in 32 bits, which is all that addresses of 32 bits see of them. -/
theorem wrapped_distance (a b : ℕ) (d : ℤ) :
    (a + (d + b).bmod (2 ^ 32)) % (2 ^ 32 : ℕ) =
      (((a + b) % 2 ^ 32 : ℕ) + d.bmod (2 ^ 32)) % (2 ^ 32 : ℕ) := by
  simp only [Int.bmod_def]
  split <;> split <;> omega

theorem Target.Entered.address (h : t.Entered g n m₀ m)
    (hmode : t.mode = .bits32 ∨ t.mode = .bits64) (hg : g.mode = t.mode) (place : ℤ → ℕ) (d : ℤ) :
    m.address g place (.pointer .rsp ((d + t.frame.saved.length * t.pointer.size).bmod (2 ^ 32))) =
      m₀.address g (fun _ => 0) (.pointer .rsp (d.bmod (2 ^ 32))) := by
  have hpointer : g.mode.pointer = t.pointer := by rw [hg]; rfl
  rw [address_pointer_eq, address_pointer_eq, hpointer, h.stack]
  rcases hmode with hmode | hmode
  · have hspace : g.space = 2 ^ 32 := by rw [Guard.space, hg, hmode]; rfl
    rw [hspace, ← wrapped_distance, Nat.cast_mul]
  · -- in 64-bit mode nothing is saved
    have hsaved : t.frame.saved.length = 0 := by rw [Target.frame, hmode]; rfl
    rw [hsaved, Nat.zero_mul, Nat.add_zero, Int.natCast_mod, Int.emod_add_emod, Nat.cast_zero,
      zero_mul, add_zero]

/-- An argument has the value that the caller passed. -/
theorem Target.Entered.fetch (h : t.Entered g n m₀ m) (hmode : t.mode = .bits32 ∨ t.mode = .bits64)
    (hg : g.mode = t.mode) (hargs : .rsp ∈ t.convention.arguments → t.frame.saved = []) (hi : i ≤ n)
    (place : ℤ → ℕ) : m.fetch g place t.pointer (t.convention.argument i t.frame.saved.length) =
      m₀.fetch g (fun _ => 0) t.pointer (t.convention.argument i 0) := by
  have hpassed := h.passed i hi
  rcases t.convention.argument_eq i with ⟨r, hr, hplace⟩ | ⟨d, hplace⟩
  · have hvalue : m.get t.pointer r = m₀.get t.pointer r := by
      by_cases hsp : r = .rsp
      · subst hsp
        have hspan : g.space = t.pointer.span := by rw [Guard.space, hg]; rfl
        rw [h.stack, hargs hr, hspan, List.length_nil, Nat.zero_mul, Nat.add_zero]
        exact (Nat.mod_mod ..).symm
      · rw [Machine.get, Machine.get, h.registers r hsp]
    rw [hplace, hplace, Machine.fetch, Machine.fetch, hvalue]
  · have haddress := h.address hmode hg place d
    rw [hplace, zero_mul, add_zero] at hpassed
    rw [hplace, hplace, zero_mul, add_zero, Machine.fetch, Machine.fetch]
    change m.load g t.pointer (m.address g place
      (.pointer .rsp ((d + t.frame.saved.length * t.pointer.size).bmod (2 ^ 32)))) = _
    rw [haddress, Machine.load, Machine.load, peek_ext (hpassed _ rfl)]

/-- Arguments cannot be loaded exactly when they go in a circle. -/
theorem loadArguments_eq_none_iff (t : Target) (dsts : List Register) :
    t.loadArguments dsts = none ↔ Move.Circular (t.argumentMoves dsts) := by
  have hproper (m : Move) (hm : m ∈ t.argumentMoves dsts) : m.src ≠ m.dst := by
    obtain ⟨i, -, -, hne⟩ := mem_argumentMoves.1 hm
    exact hne
  rw [← Move.order_eq_none_iff hproper]
  cases h : Move.order (t.argumentMoves dsts).length (t.argumentMoves dsts) <;>
    simp [Target.loadArguments, h]

theorem brought_wholeBytes (hexist : ∀ r ∈ t.convention.arguments ++ dsts, r.existsIn t.mode = true)
    (h : t.loadArguments dsts ≠ none) :
    ∀ i ∈ (t.brought dsts).map (bring t.pointer), WholeBytes t.mode i := by
  intro i hi
  obtain ⟨⟨r, o⟩, hp, rfl⟩ := List.mem_map.1 hi
  obtain ⟨i, hmem, hplace, -⟩ := (mem_brought h).1 hp
  refine bring_wholeBytes (hexist _ (List.mem_append_right _ (List.fst_mem_of_mem_zipIdx hmem))) ?_
  rcases t.convention.argument_eq i with ⟨s, hs, heq⟩ | ⟨d, heq⟩
  · exact .inl ⟨s, hplace.symm.trans (heq _), hexist s (List.mem_append_left _ hs)⟩
  · exact .inr ⟨_, hplace.symm.trans (heq _)⟩

theorem fits_argument {c : Convention} {k : ℤ} {x : Memory} (h : c.argument i k = .memory x) :
    x.Fits ∧ x.IsPlain := by
  rcases c.argument_eq i with ⟨s, -, hs⟩ | ⟨d, hd⟩
  · rw [hs] at h
    cases h
  · rw [hd] at h
    cases h
    refine ⟨?_, by simp [Memory.IsPlain, Memory.pointer]⟩
    simp only [Memory.Fits, Memory.pointer, Int.bmod_def]
    split <;> omega

/-- The code that brings arguments leaves each register with its argument. -/
theorem brought_run {v : ℕ → ℕ} {b : ℕ} (hd : dsts.Nodup) (hsp : .rsp ∉ dsts)
    (h : t.loadArguments dsts ≠ none) (hg : g.mode = .bits32 ∨ g.mode = .bits64)
    (hcode : Lies ⟨g, m.memory, fun _ => 0⟩ m.next
      ((t.brought dsts).map fun p => .code (bring t.pointer p)) b)
    (hv : ∀ d ∈ dsts.zipIdx 1, m.fetch g (fun _ => 0) t.pointer
      (t.convention.argument d.2 t.frame.saved.length) = some (v d.2)) :
    Eventually g (fun m' => m'.next = b ∧ (∀ d ∈ dsts.zipIdx 1, m'.get t.pointer d.1 = v d.2) ∧
      (∀ r ∉ dsts, m'.registers r = m.registers r) ∧ m'.memory = m.memory) m := by
  have hwide : t.pointer.IsWide := t.mode.isWide_pointer
  obtain ⟨R, f, M, a⟩ := m
  refine @brings_run ⟨g, M, fun _ => 0⟩ _ R f M a b [] _ _ hg hwide (fun _ _ => rfl)
    (by simpa using hcode) (pairwise_brought hd hsp h) (fun p hp x hx => ?_) (fun p hp => ?_)
    fun R' f' k hval hkept hk => .now ⟨hk.nil_eq, fun d hmem => ?_, fun r hr => ?_, rfl⟩
  · obtain ⟨i, -, hplace, -⟩ := (mem_brought h).1 hp
    exact fits_argument (hplace.trans (memory?_eq_some.1 hx))
  · obtain ⟨i, hmem, hplace, -⟩ := (mem_brought h).1 hp
    rw [← hplace]
    exact Option.isSome_iff_exists.2 ⟨_, hv _ hmem⟩
  · have hfetch := hv d hmem
    by_cases hown : t.convention.argument d.2 t.frame.saved.length = .register d.1
    · -- nothing else goes to the register that the argument came in
      have hnot : d.1 ∉ (t.brought dsts).map (·.1) := by
        intro hin
        obtain ⟨⟨r, o⟩, hp, rfl⟩ := List.mem_map.1 hin
        obtain ⟨i, hmem', hplace, hne⟩ := (mem_brought h).1 hp
        obtain rfl := index_inj hd hmem hmem'
        exact hne (hplace.symm.trans hown)
      rw [hown, Machine.fetch, if_pos (hwide.isPlain _)] at hfetch
      rw [← Option.some.inj hfetch]
      exact congrArg (· % t.pointer.span) (hkept _ hnot)
    · have hin : (d.1, t.convention.argument d.2 t.frame.saved.length) ∈ t.brought dsts :=
        (mem_brought h).2 ⟨d.2, hmem, rfl, hown⟩
      have hvalue : R' d.1 = v d.2 := Option.some.inj ((hval _ hin).symm.trans hfetch)
      have hlt : v d.2 < t.pointer.span := @fetch_lt ⟨g, M, fun _ => 0⟩ _ _ _ _ _ _ _ hfetch
      exact (congrArg (· % t.pointer.span) hvalue).trans (Nat.mod_eq_of_lt hlt)
  · refine hkept r fun hin => hr ?_
    obtain ⟨p, hp, rfl⟩ := List.mem_map.1 hin
    obtain ⟨i, hmem, -⟩ := (mem_brought h).1 hp
    exact List.fst_mem_of_mem_zipIdx hmem

/-- Arguments are moved all at once: there is no code for it exactly when registers would have to
move in a circle, and otherwise code that is emitted as it is and leaves each register with the
argument that the caller passed. The stack pointer may pass an argument where nothing is pushed. -/
theorem loadArguments_moves (hd : dsts.Nodup) (hsp : .rsp ∉ dsts)
    (hexist : ∀ r ∈ t.convention.arguments ++ dsts, r.existsIn t.mode = true)
    (hargs : .rsp ∈ t.convention.arguments → t.frame.saved = []) :
    (t.loadArguments dsts = none ↔ Move.Circular (t.argumentMoves dsts)) ∧
    ∀ items, t.loadArguments dsts = some items → ∃ bs : Bytes,
      (∀ e : Emitter, e.mode = t.mode → e.error = none →
        placeAll e items = ({ e with assembler := e.assembler.bytes bs }, none)) ∧
      ∀ (g : Guard) (m₀ m : Machine) (v : ℕ → ℕ), g.mode = t.mode →
        (g.mode = .bits32 ∨ g.mode = .bits64) → t.Entered g dsts.length m₀ m →
        g.Holds m.memory m.next bs →
        (∀ i r, dsts[i]? = some r →
          m₀.fetch g (fun _ => 0) t.pointer (t.convention.argument (i + 1) 0) = some (v i)) →
        Eventually g (fun m' => m'.next % g.space = (m.next + bs.length) % g.space ∧
          (∀ i r, dsts[i]? = some r → m'.get t.pointer r = v i) ∧
          (∀ r ∉ dsts, m'.registers r = m.registers r) ∧ m'.memory = m.memory) m := by
  refine ⟨loadArguments_eq_none_iff t dsts, fun items hitems => ?_⟩
  have hsome : t.loadArguments dsts ≠ none := by simp [hitems]
  have hwhole := brought_wholeBytes hexist hsome
  have hcode : items = ((t.brought dsts).map (bring t.pointer)).map .code := by
    rw [loadArguments_eq_brought hitems, List.map_map]
    rfl
  refine ⟨bytesOf t.mode ((t.brought dsts).map (bring t.pointer)), fun e he herror => ?_, ?_⟩
  · rw [hcode, ← he]
    exact placeAll_wholeBytes herror (he ▸ hwhole)
  · intro g m₀ m v hg hmode hentered hbytes hv
    rw [← hg] at hwhole hbytes ⊢
    obtain ⟨b, hlies, hend⟩ := @lies_of_wholeBytes _ ⟨g, m.memory, fun _ => 0⟩ m.next hwhole hbytes
    rw [List.map_map] at hlies
    have hrun :=
      @brought_run t g m dsts (fun i => v (i - 1)) b hd hsp hsome hmode hlies fun d hmem => by
      obtain ⟨hpos, hget⟩ := List.mk_mem_zipIdx_iff_le_and_getElem?_sub.1 hmem
      have hlen := (List.getElem?_eq_some_iff.1 hget).1
      rw [hentered.fetch (hg ▸ hmode) hg hargs (by omega) _]
      have hpassed := hv _ _ hget
      rwa [Nat.sub_add_cancel hpos] at hpassed
    refine hrun.mono fun m' ⟨hnext, hvalues, hkept, hmemory⟩ =>
      ⟨hnext ▸ hend, fun i r hr => ?_, hkept, hmemory⟩
    exact hvalues (r, i + 1) (List.mk_mem_zipIdx_iff_le_and_getElem?_sub.2 ⟨by omega, hr⟩)

def threeRegisters : Convention where
  name := "three"
  mode := .bits64
  arguments := [.rdi, .rsi, .rdx]
  stackBase := 8
  saved := []

def unguarded : Guard where
  mode := .bits64
  readable := fun _ => true
  writable := fun _ => true
  executable := fun _ => true

/-- Code for the registers `rdx`, `rcx` and `rsi`, with the third argument on the stack. -/
def rotated : Machine where
  registers :=
    fun r => if r = .rsp then 4096 else if r = .rsi then 10 else if r = .rdx then 20 else 0
  flags := {}
  memory := fun x => if x = 4104 then 30 else
    Bytes.byteAt [0x48, 0x89, 0xd1, 0x48, 0x89, 0xf2, 0x48, 0x8b, 0x74, 0x24, 0x08] x
  next := 0

/-- A chain of moves that ends in a load, and a swap. -/
theorem threeRegisters_moves :
    Eventually unguarded
      (fun m => m.get .qword .rdx = 10 ∧ m.get .qword .rcx = 20 ∧ m.get .qword .rsi = 30) rotated ∧
    Move.Circular ((Target.bare threeRegisters).argumentMoves [.rdx, .rsi]) := by
  constructor
  · obtain ⟨-, hload⟩ := @loadArguments_moves (.bare threeRegisters) [.rdx, .rcx, .rsi] (by decide)
      (by decide) (by decide) (by decide)
    obtain ⟨bs, hemit, hrun⟩ := hload _ rfl
    obtain rfl : bs = [0x48, 0x89, 0xd1, 0x48, 0x89, 0xf2, 0x48, 0x8b, 0x74, 0x24, 0x08] := by
      have hcode := congrArg (·.1.assembler.code.toList) (hemit { mode := .bits64 } rfl rfl)
      simp only [Assembler.bytes, Array.toList_appendList, List.nil_append] at hcode
      exact hcode.symm.trans (by decide +kernel)
    have hentered : (Target.bare threeRegisters).Entered unguarded 3 rotated rotated :=
      ⟨rfl, fun _ _ => rfl, fun _ _ _ _ _ _ => rfl⟩
    refine (hrun unguarded rotated rotated (fun i => 10 * (i + 1)) rfl (.inr rfl)
      hentered ?_ ?_).mono fun m h => ⟨h.2.1 0 _ rfl, h.2.1 1 _ rfl, h.2.1 2 _ rfl⟩
    · unfold Guard.Holds
      decide +kernel
    · intro i r hr
      obtain ⟨hi, -⟩ := List.getElem?_eq_some_iff.1 hr
      have hall : ∀ i < 3, rotated.fetch unguarded (fun _ => 0) .qword
        (threeRegisters.argument (i + 1) 0) = some (10 * (i + 1)) := by decide +kernel
      exact hall i hi
  · exact (@loadArguments_moves (.bare threeRegisters) [.rdx, .rsi] (by decide)
      (by decide) (by decide) (by decide)).1.1 rfl

end Entry

end PortCodec.Program
