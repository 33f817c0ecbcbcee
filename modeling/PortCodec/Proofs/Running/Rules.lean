import PortCodec.Proofs.Linking.Loaded
import PortCodec.Proofs.Machine.Memory

/-! Rules for running loaded code. Each says where the machine gets from an instruction that lies at
its next address, given what happens afterwards; flags that are set anew before they are asked for
are left open. -/

namespace PortCodec.X86

/-- Memory that has changed only where the code may write. -/
def Site.Intact (c : Site) (memory : ℕ → UInt8) : Prop :=
  ∀ x, c.guard.writable x = false → memory x = c.memory x

/-- Code that cannot overwrite itself, in a mode that the machine has. -/
structure Site.Sound (c : Site) : Prop where
  mode : c.guard.mode = .bits32 ∨ c.guard.mode = .bits64
  code : ∀ x, c.guard.executable x = true → c.guard.writable x = false

/-- The code is as it was loaded. -/
def Site.Stands (c : Site) (memory : ℕ → UInt8) : Prop :=
  ∀ x, c.guard.executable x = true → memory x = c.memory x

theorem Site.Sound.stands {c : Site} {memory : ℕ → UInt8} (hc : c.Sound) (h : c.Intact memory) :
    c.Stands memory := fun x hx => h x (hc.code x hx)

def Site.word (c : Site) : ℕ := c.guard.mode.pointer.size

def Site.Stores (c : Site) (memory : ℕ → UInt8) (x v : ℕ) : Prop :=
  ∀ i < c.word, memory (x + i) = (Bytes.littleEndian c.word v).byteAt i

/-- The bytes from an address on may be used as data. -/
def Site.Owns (c : Site) (x n : ℕ) : Prop :=
  ∀ i < n, c.guard.readable (x + i) = true ∧ c.guard.writable (x + i) = true

/-- The widths whose values fill a register. -/
def Width.IsWide (w : Width) : Prop := w = .dword ∨ w = .qword

theorem Width.isWide_dword : Width.IsWide .dword := .inl rfl

theorem Mode.isWide_pointer (m : Mode) : m.pointer.IsWide := by
  cases m
  · exact .inl rfl
  · exact .inr rfl
  · exact .inl rfl

variable {w : Width} {r : Register}

theorem Width.IsWide.isPlain (hw : w.IsWide) (r : Register) : Machine.isPlain w r = true := by
  rcases hw with rfl | rfl <;> rfl

theorem Width.IsWide.merge (hw : w.IsWide) (old v : ℕ) : w.merge old v = v % w.span := by
  rcases hw with rfl | rfl <;> rfl

theorem Width.span_pos (w : Width) : 0 < w.span := Nat.pow_pos (by decide)

theorem Width.ofInt_lt (w : Width) (v : ℤ) : w.ofInt v < w.span := by
  have hpos := w.span_pos
  have := Int.emod_lt_of_pos v (Int.natCast_pos.2 hpos)
  unfold Width.ofInt
  omega

theorem Width.ofInt_natCast {n : ℕ} (h : n < w.span) : w.ofInt n = n := by
  unfold Width.ofInt
  rw [← Int.natCast_mod, Int.toNat_natCast, Nat.mod_eq_of_lt h]

theorem Width.ofInt_byte (y : UInt8) : Width.ofInt .byte y.toNat = y.toNat :=
  ofInt_natCast (y.toNat_lt.trans_eq (by decide))

section Conditions

def Flags.compare (w : Width) (a b : ℕ) : Flags :=
  .ofSum w a b ((a + w.span - b) % w.span) (a < b) true

/-- What a condition says after a comparison. -/
def Condition.Compares (c : Condition) (rel : ℕ → ℕ → Prop) : Prop :=
  ∀ w a b, a < Width.span w → b < Width.span w →
    ∃ v, c.holds? (.compare w a b) = some v ∧ (v = true ↔ rel a b)

theorem difference_eq_zero {a b n : ℕ} (ha : a < n) (hb : b < n) : (a + n - b) % n = 0 ↔ a = b := by
  rcases Nat.lt_trichotomy a b with h | rfl | h
  · rw [Nat.mod_eq_of_lt (by omega)]
    omega
  · simp
  · rw [show a + n - b = a - b + n by omega, Nat.add_mod_right, Nat.mod_eq_of_lt (by omega)]
    omega

theorem Condition.equal_compares : Condition.equal.Compares (· = ·) := fun w a b ha hb =>
  ⟨decide ((a + w.span - b) % w.span = 0), by simp [holds?, equal, Flags.answer?, Flags.compare,
    Flags.ofSum, Flags.ofResult], by simp [difference_eq_zero ha hb]⟩

theorem Condition.notEqual_compares : Condition.notEqual.Compares (· ≠ ·) := fun w a b ha hb =>
  ⟨!decide ((a + w.span - b) % w.span = 0), by simp [holds?, notEqual, Flags.answer?, Flags.compare,
    Flags.ofSum, Flags.ofResult], by simp [difference_eq_zero ha hb]⟩

theorem Condition.above_compares : Condition.above.Compares (· > ·) := fun w a b ha hb =>
  ⟨!(decide (a < b) || decide ((a + w.span - b) % w.span = 0)), by simp [holds?, above,
    Flags.answer?, Flags.both, Flags.compare, Flags.ofSum, Flags.ofResult], by
      simp [difference_eq_zero ha hb]
      omega⟩

theorem Condition.aboveOrEqual_compares : Condition.aboveOrEqual.Compares (· ≥ ·) :=
  fun w a b _ _ =>
  ⟨!decide (a < b), by simp [holds?, aboveOrEqual, Flags.answer?, Flags.compare, Flags.ofSum,
    Flags.ofResult], by simp⟩

/-- What a condition says of a number that is tested. -/
def Condition.Tests (c : Condition) (rel : Width → ℕ → Prop) : Prop :=
  ∀ w n, ∃ v, c.holds? (.ofResult w n (some false) (some false)) = some v ∧ (v = true ↔ rel w n)

theorem Condition.equal_tests : Condition.equal.Tests fun _ n => n = 0 := fun _ n =>
  ⟨decide (n = 0), by simp [holds?, equal, Flags.answer?, Flags.ofResult], by simp⟩

theorem Condition.notEqual_tests : Condition.notEqual.Tests fun _ n => n ≠ 0 := fun _ n =>
  ⟨!decide (n = 0), by simp [holds?, notEqual, Flags.answer?, Flags.ofResult], by simp⟩

theorem Condition.notSign_tests : Condition.notSign.Tests fun w n => 2 * n < w.span := fun w n =>
  ⟨!decide (w.span ≤ 2 * n), by simp [holds?, notSign, Flags.answer?, Flags.ofResult], by simp⟩

end Conditions

end PortCodec.X86

namespace PortCodec.Program

open X86

variable {c : Site} {q : Machine → Prop} {R : Register → ℕ} {f : Flags} {M : ℕ → UInt8}
  {a b : ℕ} {rest : List Item} {w : Width} {r s : Register}

theorem Lies.nil_eq (h : Lies c a [] b) : a = b := by
  cases h
  rfl

theorem Lies.mark_eq {m : Mark} (h : Lies c a (.mark m :: rest) b) :
    c.place m.label = a ∧ Lies c a rest b := by
  cases h with
  | mark hm h => exact ⟨hm, h⟩

/-- Carries out the next instruction. -/
theorem Lies.step {i : Instruction} (h : Lies c a (.code i :: rest) b)
    (hmode : c.guard.mode = .bits32 ∨ c.guard.mode = .bits64) (hM : c.Stands M) (hi : i.Regular)
    (hmem : ∀ x ∈ i.memory?, x.Fits ∧ x.IsPlain)
    (run : ∀ k, k < c.guard.space → Lies c k rest b →
      ∃ m, Machine.execute c.guard c.place ⟨R, f, M, k⟩ i = some m ∧ Eventually c.guard q m) :
    Eventually c.guard q ⟨R, f, M, a⟩ := by
  cases h with
  | code hs hfield hbytes hr h =>
    have hholds : c.guard.Holds M a _ := fun k hk =>
      ⟨(hbytes k hk).1, (hM _ (hbytes k hk).1).trans (hbytes k hk).2⟩
    obtain ⟨m, hm, hq⟩ := run _ (Nat.mod_lt _ c.guard.space_pos) h
    have hstep := step_eq (m := ⟨R, f, M, a⟩) hmode hs hi hmem hfield hholds hr
    exact .later (hstep.trans hm) hq

theorem Lies.next {i : Instruction} (h : Lies c a (.code i :: rest) b) (hc : c.Sound)
    (hM : c.Intact M) (hi : i.Regular) (hmem : ∀ x ∈ i.memory?, x.Fits ∧ x.IsPlain)
    (run : ∀ k, k < c.guard.space → Lies c k rest b →
      ∃ m, Machine.execute c.guard c.place ⟨R, f, M, k⟩ i = some m ∧ Eventually c.guard q m) :
    Eventually c.guard q ⟨R, f, M, a⟩ :=
  h.step hc.mode (hc.stands hM) hi hmem run

theorem fits_pointer {r : Register} {d : ℕ} (hd : d < 2 ^ 31) :
    (Memory.pointer r d).Fits ∧ (Memory.pointer r d).IsPlain := by
  refine ⟨?_, by simp [Memory.IsPlain, Memory.pointer]⟩
  simp only [Memory.Fits, Memory.pointer]
  omega

/-- The address of a place behind a register. -/
theorem address_pointer {place : ℤ → ℕ} {g : Guard} {k d : ℕ} (h : R r + d < g.space) :
    Machine.address g place ⟨R, f, M, k⟩ (.pointer r d) = R r + d := by
  have hr : R r % g.mode.pointer.span = R r := Nat.mod_eq_of_lt (by change R r < g.space; omega)
  simp only [Machine.address, Memory.pointer, Machine.get, hr]
  rw [Int.natCast_zero, add_zero, ← Int.natCast_add, Int.emod_eq_of_lt (by omega) (by omega)]
  rfl

section Registers

/-- An instruction that sets registers and flags. -/
theorem Lies.sets {i : Instruction} {R' : Register → ℕ} (h : Lies c a (.code i :: rest) b)
    (hc : c.Sound) (hM : c.Intact M) (hi : i.Regular) (hmem : ∀ x ∈ i.memory?, x.Fits ∧ x.IsPlain)
    (hv : ∀ k, ∃ f', Machine.execute c.guard c.place ⟨R, f, M, k⟩ i = some ⟨R', f', M, k⟩)
    (after : ∀ k f', Lies c k rest b → Eventually c.guard q ⟨R', f', M, k⟩) :
    Eventually c.guard q ⟨R, f, M, a⟩ :=
  h.next hc hM hi hmem fun k _ hk =>
    have ⟨f', hf'⟩ := hv k
    ⟨_, hf', after k f' hk⟩

/-- An instruction that is left out when a number is zero, for it would change no register then. -/
theorem Lies.setsUnlessZero {i : Instruction} {R' : Register → ℕ} {j : ℕ}
    (h : Lies c a ((if j = 0 then [] else [.code i]) ++ rest) b) (hc : c.Sound) (hM : c.Intact M)
    (hi : i.Regular) (hmem : ∀ x ∈ i.memory?, x.Fits ∧ x.IsPlain) (hzero : j = 0 → R' = R)
    (hv : j ≠ 0 → ∀ k, ∃ f', Machine.execute c.guard c.place ⟨R, f, M, k⟩ i = some ⟨R', f', M, k⟩)
    (after : ∀ k f', Lies c k rest b → Eventually c.guard q ⟨R', f', M, k⟩) :
    Eventually c.guard q ⟨R, f, M, a⟩ := by
  by_cases hj : j = 0
  · rw [if_pos hj, List.nil_append] at h
    rw [← hzero hj]
    exact after a f h
  · rw [if_neg hj] at h
    exact h.sets hc hM hi hmem (hv hj) after

theorem execute_mov {g : Guard} {place : ℤ → ℕ} (hw : w.IsWide) (k : ℕ) :
    Machine.execute g place ⟨R, f, M, k⟩ (.mov w (.register r) s) =
      some ⟨Function.update R r (R s % w.span), f, M, k⟩ := by
  simp [Machine.execute, Machine.assign, Machine.get, Machine.set_eq, hw.isPlain, hw.merge]

theorem execute_movImmediate {g : Guard} {place : ℤ → ℕ} {v : ℤ} (hw : w.IsWide) (k : ℕ) :
    Machine.execute g place ⟨R, f, M, k⟩ (.movImmediate w (.register r) v) =
      some ⟨Function.update R r (w.ofInt v % w.span), f, M, k⟩ := by
  simp [Machine.execute, Machine.assign, Machine.set_eq, hw.isPlain, hw.merge]

theorem execute_inc {g : Guard} {place : ℤ → ℕ} (hw : w.IsWide) (k : ℕ) :
    ∃ f', Machine.execute g place ⟨R, f, M, k⟩ (.inc w r) =
      some ⟨Function.update R r ((R r + 1) % w.span), f', M, k⟩ := by
  simp [Machine.execute, Machine.count, Machine.get, Machine.set_eq, hw.isPlain, hw.merge]

/-- An arithmetic operation on a register. -/
theorem alu_register {g : Guard} {place : ℤ → ℕ} {op : Alu} {n v : ℕ} {f' : Flags} (hw : w.IsWide)
    (h : op.apply? w (R r % w.span) n = some (some v, f')) (hv : v < w.span) (k : ℕ) :
    Machine.alu g place ⟨R, f, M, k⟩ op w (.register r) n =
      some ⟨Function.update R r v, f', M, k⟩ := by
  simp [Machine.alu, Machine.fetch, Machine.assign, Machine.get, Machine.set_eq,
    hw.isPlain, hw.merge, h, Nat.mod_eq_of_lt hv]

theorem execute_alu {g : Guard} {place : ℤ → ℕ} {op : Alu} {v : ℕ} {f' : Flags} (hw : w.IsWide)
    (h : op.apply? w (R r % w.span) (R s % w.span) = some (some v, f')) (hv : v < w.span) (k : ℕ) :
    Machine.execute g place ⟨R, f, M, k⟩ (.alu op w r s) =
      some ⟨Function.update R r v, f', M, k⟩ := by
  simp [Machine.execute, Machine.get, hw.isPlain, alu_register hw h hv]

theorem execute_zero {g : Guard} {place : ℤ → ℕ} (hw : w.IsWide) (k : ℕ) :
    ∃ f', Machine.execute g place ⟨R, f, M, k⟩ (.alu .xor w r r) =
      some ⟨Function.update R r 0, f', M, k⟩ := by
  have hzero : Alu.xor.apply? w (R r % w.span) (R r % w.span) =
      some (some 0, .ofResult w 0 (some false) (some false)) := by
    simp [Alu.xor, Alu.apply?]
  exact ⟨_, execute_alu hw hzero w.span_pos k⟩

theorem execute_add {g : Guard} {place : ℤ → ℕ} (hw : w.IsWide) (k : ℕ) :
    ∃ f', Machine.execute g place ⟨R, f, M, k⟩ (.alu .add w r s) =
      some ⟨Function.update R r ((R r + R s) % w.span), f', M, k⟩ := by
  rw [Nat.add_mod]
  exact ⟨_, execute_alu hw rfl (Nat.mod_lt _ w.span_pos) k⟩

theorem execute_sub {g : Guard} {place : ℤ → ℕ} (hw : w.IsWide) (k : ℕ) :
    ∃ f', Machine.execute g place ⟨R, f, M, k⟩ (.alu .sub w r s) =
      some ⟨Function.update R r ((R r % w.span + w.span - R s % w.span) % w.span), f', M, k⟩ :=
  ⟨_, execute_alu hw rfl (Nat.mod_lt _ w.span_pos) k⟩

theorem execute_subImmediate {g : Guard} {place : ℤ → ℕ} {v : ℤ} (hw : w.IsWide) (k : ℕ) :
    ∃ f', Machine.execute g place ⟨R, f, M, k⟩ (.aluImmediate .sub w (.register r) v) =
      some ⟨Function.update R r ((R r % w.span + w.span - w.ofInt v) % w.span), f', M, k⟩ :=
  ⟨_, alu_register hw rfl (Nat.mod_lt _ w.span_pos) k⟩

theorem execute_andImmediate {g : Guard} {place : ℤ → ℕ} {v : ℤ} (hw : w.IsWide) (k : ℕ) :
    ∃ f', Machine.execute g place ⟨R, f, M, k⟩ (.aluImmediate .and w (.register r) v) =
      some ⟨Function.update R r (R r % w.span &&& w.ofInt v), f', M, k⟩ :=
  ⟨_, alu_register hw rfl (Nat.and_le_left.trans_lt (Nat.mod_lt _ w.span_pos)) k⟩

theorem execute_shl {g : Guard} {place : ℤ → ℕ} {n : UInt8} (hw : w.IsWide) (hpos : 0 < n.toNat)
    (hn : n.toNat < 32) (k : ℕ) :
    ∃ f', Machine.execute g place ⟨R, f, M, k⟩ (.shl w r n) =
      some ⟨Function.update R r (R r % w.span * 2 ^ n.toNat % w.span), f', M, k⟩ := by
  have hcount : n.toNat % (if w = .qword then 64 else 32) = n.toNat :=
    Nat.mod_eq_of_lt (by split_ifs <;> omega)
  simp [Machine.execute, Machine.shift, Machine.get, Machine.set_eq, hw.isPlain, hw.merge,
    hcount, hpos.ne']

theorem execute_shr {g : Guard} {place : ℤ → ℕ} {n : UInt8} (hw : w.IsWide) (hpos : 0 < n.toNat)
    (hn : n.toNat < 32) (k : ℕ) :
    ∃ f', Machine.execute g place ⟨R, f, M, k⟩ (.shr w r n) =
      some ⟨Function.update R r (R r % w.span / 2 ^ n.toNat), f', M, k⟩ := by
  have hcount : n.toNat % (if w = .qword then 64 else 32) = n.toNat :=
    Nat.mod_eq_of_lt (by split_ifs <;> omega)
  have hlt : R r % w.span / 2 ^ n.toNat < w.span :=
    (Nat.div_le_self _ _).trans_lt (Nat.mod_lt _ w.span_pos)
  simp [Machine.execute, Machine.shift, Machine.get, Machine.set_eq, hw.isPlain, hw.merge,
    hcount, hpos.ne', Nat.mod_eq_of_lt hlt]

theorem execute_neg {g : Guard} {place : ℤ → ℕ} (hw : w.IsWide) (k : ℕ) :
    ∃ f', Machine.execute g place ⟨R, f, M, k⟩ (.neg w r) =
      some ⟨Function.update R r ((w.span - R r % w.span) % w.span), f', M, k⟩ := by
  simp [Machine.execute, Machine.get, Machine.set_eq, hw.isPlain, hw.merge]

theorem execute_addImmediate {g : Guard} {place : ℤ → ℕ} {v : ℤ} (hw : w.IsWide) (k : ℕ) :
    ∃ f', Machine.execute g place ⟨R, f, M, k⟩ (.aluImmediate .add w (.register r) v) =
      some ⟨Function.update R r ((R r % w.span + w.ofInt v) % w.span), f', M, k⟩ :=
  ⟨_, alu_register hw rfl (Nat.mod_lt _ w.span_pos) k⟩

/-- A number that fits its register is divided. -/
theorem execute_div {g : Guard} {place : ℤ → ℕ} {d n : ℕ} (hw : w.IsWide) (hhigh : R .rdx = 0)
    (hn : R .rax = n) (hlt : n < w.span) (hr : R r = d) (hd : 0 < d) (hdlt : d < w.span) (k : ℕ) :
    ∃ f', Machine.execute g place ⟨R, f, M, k⟩ (.div w r) =
      some ⟨Function.update (Function.update R .rax (n / d)) .rdx (n % d), f', M, k⟩ := by
  have hbyte : w ≠ .byte := by rcases hw with rfl | rfl <;> decide
  have hquotient : n / d < w.span := (Nat.div_le_self n d).trans_lt hlt
  have hremainder : n % d < w.span := (Nat.mod_lt n hd).trans hdlt
  simp [Machine.execute, Machine.divide, Machine.get, Machine.set_eq, hw.isPlain,
    hw.merge, hbyte, hhigh,
    hn, hr, Nat.mod_eq_of_lt hlt, Nat.mod_eq_of_lt hdlt, Nat.mod_eq_of_lt hquotient,
    Nat.mod_eq_of_lt hremainder, hd.ne', hquotient]

theorem execute_lea {g : Guard} {place : ℤ → ℕ} {d : ℕ} (h : R s + d < g.space) (k : ℕ) :
    Machine.execute g place ⟨R, f, M, k⟩ (.lea r (.pointer s d)) =
      some ⟨Function.update R r (R s + d), f, M, k⟩ := by
  have hmod : (R s + d) % g.mode.pointer.span = R s + d := Nat.mod_eq_of_lt h
  simp [Machine.execute, address_pointer h, Machine.set_eq, g.mode.isWide_pointer.merge, hmod]

theorem ofInt_toInt_mul (w : Width) (n : ℕ) (v : ℤ) :
    w.ofInt (w.toInt (n % w.span) * v) = ((n * v) % w.span).toNat := by
  rw [Width.ofInt, Width.toInt, Int.mul_emod, Int.bmod_emod, Int.natCast_mod,
    Int.emod_emod_of_dvd _ dvd_rfl, ← Int.mul_emod]

theorem execute_times {g : Guard} {place : ℤ → ℕ} {n : ℕ} (hw : w.IsWide)
    (hn : w.toInt (w.ofInt n) = n) (k : ℕ) :
    ∃ f', Machine.execute g place ⟨R, f, M, k⟩ (.imul w r s n) =
      some ⟨Function.update R r (R s * n % w.span), f', M, k⟩ := by
  have hbyte : w ≠ .byte := by rcases hw with rfl | rfl <;> decide
  have hvalue : ((R s : ℤ) * n % w.span).toNat = R s * n % w.span := by
    rw [← Int.natCast_mul, ← Int.natCast_mod, Int.toNat_natCast]
  simp [Machine.execute, Machine.get, Machine.set_eq, hbyte, hn, ofInt_toInt_mul, hvalue, hw.merge]

end Registers

section Memory

variable {g : Guard} {place : ℤ → ℕ} {d x : ℕ}

theorem load_byte {k : ℕ} (hx : x < g.space) (hr : g.readable x = true) :
    Machine.load g ⟨R, f, M, k⟩ .byte x = some (M x).toNat := by
  have hall : g.allows g.readable x (Width.size .byte) = true :=
    allows_of (by simp [Width.size]; omega) fun i hi => by
      obtain rfl : i = 0 := by simp [Width.size] at hi; omega
      exact hr
  rw [Machine.load, if_pos hall]
  simp only [Width.size, peek, Bytes.toNatLE, Nat.mod_eq_of_lt hx, Nat.mul_zero, Nat.add_zero]

theorem load_eq {k : ℕ} {bs : Bytes} (hlen : bs.length = w.size) (hx : x + bs.length ≤ g.space)
    (hr : ∀ i < bs.length, g.readable (x + i) = true)
    (hM : ∀ i < bs.length, M (x + i) = bs.byteAt i) :
    Machine.load g ⟨R, f, M, k⟩ w x = some bs.toNatLE := by
  have hall : g.allows g.readable x w.size = true := allows_of (hlen ▸ hx) (hlen ▸ hr)
  rw [Machine.load, if_pos hall, ← hlen]
  exact congrArg (some ∘ Bytes.toNatLE) (peek_eq hx hM)

theorem store_eq {k v : ℕ} (hx : x + w.size ≤ g.space)
    (hw : ∀ i < w.size, g.writable (x + i) = true) :
    Machine.store g ⟨R, f, M, k⟩ w x v =
      some ⟨R, f, splice M x (Bytes.littleEndian w.size v), k⟩ := by
  have hall : g.allows g.writable x w.size = true := allows_of hx hw
  have hpoke : poke g.space M x (Bytes.littleEndian w.size v) = _ := poke_eq (by simpa using hx)
  rw [Machine.store, if_pos hall, hpoke]

theorem execute_loadByte (hx : R s + d < g.space) (hr : g.readable (R s + d) = true) (k : ℕ) :
    Machine.execute g place ⟨R, f, M, k⟩ (.loadZero r .byte (.pointer s d)) =
      some ⟨Function.update R r (M (R s + d)).toNat, f, M, k⟩ := by
  have hlt : (M (R s + d)).toNat % Width.span .dword = (M (R s + d)).toNat :=
    Nat.mod_eq_of_lt ((M (R s + d)).toNat_lt.trans (by decide))
  simp [Machine.execute, address_pointer hx, load_byte hx hr, Machine.set_eq, Width.merge, hlt]

theorem load_lt {k v : ℕ} (h : Machine.load g ⟨R, f, M, k⟩ w x = some v) : v < w.span := by
  unfold Machine.load at h
  split_ifs at h
  cases h
  exact (toNatLE_lt _).trans_eq (by rw [length_peek]; rfl)

/-- What is loaded does not depend on registers and on memory elsewhere. -/
theorem load_congr {R' : Register → ℕ} {f' : Flags} {M' : ℕ → UInt8} {k k' v : ℕ}
    (h : Machine.load g ⟨R, f, M, k⟩ w x = some v) (hx : x + w.size ≤ g.space)
    (hM : ∀ i < w.size, M' (x + i) = M (x + i)) : Machine.load g ⟨R', f', M', k'⟩ w x = some v := by
  have hpeek : peek g.space M' x w.size = peek g.space M x w.size := peek_congr hx hM
  rw [← h, Machine.load, Machine.load, hpeek]

theorem execute_store (hr : Machine.isPlain w r = true) (hx : R s + d + w.size ≤ g.space)
    (hw : ∀ i < w.size, g.writable (R s + d + i) = true) (k : ℕ) :
    Machine.execute g place ⟨R, f, M, k⟩ (.mov w (.memory (.pointer s d)) r) =
      some ⟨R, f, splice M (R s + d) (Bytes.littleEndian w.size (R r % w.span)), k⟩ := by
  have hsize : 0 < w.size := by cases w <;> decide
  simp [Machine.execute, hr, Machine.assign, address_pointer (show R s + d < g.space by omega),
    store_eq hx hw, Machine.get]

theorem execute_storeImmediate {v : ℤ} (hx : R s + d + w.size ≤ g.space)
    (hw : ∀ i < w.size, g.writable (R s + d + i) = true) (k : ℕ) :
    Machine.execute g place ⟨R, f, M, k⟩ (.movImmediate w (.memory (.pointer s d)) v) =
      some ⟨R, f, splice M (R s + d) (Bytes.littleEndian w.size (w.ofInt v)), k⟩ := by
  have hsize : 0 < w.size := by cases w <;> decide
  simp [Machine.execute, Machine.assign, address_pointer (show R s + d < g.space by omega),
    store_eq hx hw]

theorem execute_loadSign {v : ℕ} (hx : R s + d < g.space) {k : ℕ}
    (hv : Machine.load g ⟨R, f, M, k⟩ w (R s + d) = some v) :
    Machine.execute g place ⟨R, f, M, k⟩ (.loadSign r w (.pointer s d)) =
      some ⟨Function.update R r (Width.ofInt .dword (w.toInt v)), f, M, k⟩ := by
  have hlt : Width.ofInt .dword (w.toInt v) % Width.span .dword = Width.ofInt .dword (w.toInt v) :=
    Nat.mod_eq_of_lt (Width.ofInt_lt _ _)
  simp [Machine.execute, address_pointer hx, hv, Machine.set_eq, Width.merge, hlt]

theorem execute_storeByte {y : UInt8} (hx : R s + d < g.space) (hw : g.writable (R s + d) = true)
    (k : ℕ) : Machine.execute g place ⟨R, f, M, k⟩
        (.movImmediate .byte (.memory (.pointer s d)) y.toNat) =
      some ⟨R, f, splice M (R s + d) [y], k⟩ := by
  have hbytes : Bytes.littleEndian (Width.size .byte) (Width.ofInt .byte y.toNat) = [y] := by
    rw [Width.ofInt_byte, Width.size, Bytes.littleEndian, Nat.mod_eq_of_lt y.toNat_lt]
    simp [Bytes.littleEndian]
  rw [← hbytes]
  refine execute_storeImmediate (by simp [Width.size]; omega) (fun i hi => ?_) k
  obtain rfl : i = 0 := by simp [Width.size] at hi; omega
  exact hw

theorem execute_testByte {mask : UInt8} (hx : R s + d < g.space) (hr : g.readable (R s + d) = true)
    (k : ℕ) : Machine.execute g place ⟨R, f, M, k⟩
        (.testImmediate .byte (.memory (.pointer s d)) mask.toNat) =
      some ⟨R, .ofResult .byte ((M (R s + d)).toNat &&& mask.toNat) (some false) (some false),
        M, k⟩ := by
  simp [Machine.execute, Machine.fetch, address_pointer hx, load_byte hx hr, Width.ofInt_byte]

/-- An operation on a byte in memory. -/
theorem execute_byte {op : Alu} {mask y : UInt8} {f' : Flags} (hx : R s + d < g.space)
    (hr : g.readable (R s + d) = true) (hw : g.writable (R s + d) = true)
    (hop : op.apply? .byte (M (R s + d)).toNat mask.toNat = some (some y.toNat, f')) (k : ℕ) :
    Machine.execute g place ⟨R, f, M, k⟩
        (.aluImmediate op .byte (.memory (.pointer s d)) mask.toNat) =
      some ⟨R, f', splice M (R s + d) [y], k⟩ := by
  have hstore :=
    @store_eq R f' M .byte g (R s + d) k y.toNat (by simp [Width.size]; omega) fun i hi => by
    obtain rfl : i = 0 := by simp [Width.size] at hi; omega
    exact hw
  have hbytes : Bytes.littleEndian (Width.size .byte) y.toNat = [y] := by
    simp [Width.size, Bytes.littleEndian, Nat.mod_eq_of_lt y.toNat_lt]
  rw [hbytes] at hstore
  simp only [Machine.execute, Machine.alu, Machine.fetch, address_pointer hx, load_byte hx hr,
    Width.ofInt_byte, Option.bind_eq_bind, Option.bind_some, hop, Machine.assign]
  exact hstore

theorem execute_orByte {mask : UInt8} (hx : R s + d < g.space) (hr : g.readable (R s + d) = true)
    (hw : g.writable (R s + d) = true) (k : ℕ) :
    ∃ f', Machine.execute g place ⟨R, f, M, k⟩
        (.aluImmediate .or .byte (.memory (.pointer s d)) mask.toNat) =
      some ⟨R, f', splice M (R s + d) [M (R s + d) ||| mask], k⟩ :=
  ⟨_, execute_byte hx hr hw (by rw [UInt8.toNat_or]; rfl) k⟩

theorem execute_andByte {mask : UInt8} (hx : R s + d < g.space) (hr : g.readable (R s + d) = true)
    (hw : g.writable (R s + d) = true) (k : ℕ) :
    ∃ f', Machine.execute g place ⟨R, f, M, k⟩
        (.aluImmediate .and .byte (.memory (.pointer s d)) mask.toNat) =
      some ⟨R, f', splice M (R s + d) [M (R s + d) &&& mask], k⟩ :=
  ⟨_, execute_byte hx hr hw (by rw [UInt8.toNat_and]; rfl) k⟩

end Memory

section Jumps

variable {l : ℤ} {cond : Condition}

theorem Lies.jump (h : Lies c a (.code (.jmpShort l) :: rest) b) (hc : c.Sound) (hM : c.Intact M)
    (after : Eventually c.guard q ⟨R, f, M, c.place l⟩) : Eventually c.guard q ⟨R, f, M, a⟩ :=
  h.next hc hM trivial (by simp [Instruction.memory?]) fun _ _ _ => ⟨_, rfl, after⟩

theorem Lies.jumpFar (h : Lies c a (.code (.jmp l) :: rest) b) (hc : c.Sound) (hM : c.Intact M)
    (after : Eventually c.guard q ⟨R, f, M, c.place l⟩) : Eventually c.guard q ⟨R, f, M, a⟩ :=
  h.next hc hM trivial (by simp [Instruction.memory?]) fun _ _ _ => ⟨_, rfl, after⟩

/-- A jump to an address that is loaded from memory. -/
theorem Lies.jumpThrough {x : Memory} {y v : ℕ} (h : Lies c a (.code (.jmpMemory x) :: rest) b)
    (hc : c.Sound) (hM : c.Intact M) (hx : x.Fits ∧ x.IsPlain)
    (haddress : ∀ k, Machine.address c.guard c.place ⟨R, f, M, k⟩ x = y)
    (hy : c.guard.jumps y = true)
    (hload : ∀ k, Machine.load c.guard ⟨R, f, M, k⟩ c.guard.mode.pointer y = some v)
    (after : Eventually c.guard q ⟨R, f, M, v⟩) : Eventually c.guard q ⟨R, f, M, a⟩ := by
  refine h.next hc hM trivial ?_ fun k _ _ => ⟨_, ?_, after⟩
  · rintro _ ⟨⟩
    exact hx
  · simp [Machine.execute, haddress, hy, hload]

/-- A jump on a condition whose answer is known, near or far. -/
theorem Lies.branch {i : Instruction} {v : Bool} (h : Lies c a (.code i :: rest) b)
    (hi : i = .jccShort cond l ∨ i = .jcc cond l) (hc : c.Sound) (hM : c.Intact M)
    (hcond : cond.number.toNat < 16) (hv : cond.holds? f = some v)
    (hit : v = true → Eventually c.guard q ⟨R, f, M, c.place l⟩)
    (miss : v = false → ∀ k, Lies c k rest b → Eventually c.guard q ⟨R, f, M, k⟩) :
    Eventually c.guard q ⟨R, f, M, a⟩ := by
  have hregular : i.Regular := by rcases hi with rfl | rfl <;> exact hcond
  have hmem : i.memory? = none := by rcases hi with rfl | rfl <;> rfl
  have hrun (m : Machine) : m.execute c.guard c.place i = m.branch c.place cond l := by
    rcases hi with rfl | rfl <;> rfl
  refine h.next hc hM hregular (by simp [hmem]) fun k _ hk => ?_
  cases v with
  | true => exact ⟨_, by simp [hrun, Machine.branch, hv], hit rfl⟩
  | false => exact ⟨_, by simp [hrun, Machine.branch, hv], miss rfl k hk⟩

/-- A register is compared with a number and the code jumps on the outcome. -/
theorem Lies.compareBranch {i : Instruction} {rel : ℕ → ℕ → Prop} {v : ℤ} (hrel : cond.Compares rel)
    (h : Lies c a (.code (.aluImmediate .cmp w (.register r) v) :: .code i :: rest) b)
    (hi : i = .jccShort cond l ∨ i = .jcc cond l) (hc : c.Sound) (hM : c.Intact M)
    (hr : Machine.isPlain w r = true) (hv : w.Holds v) (hcond : cond.number.toNat < 16)
    (hit : rel (R r % w.span) (w.ofInt v) → ∀ f, Eventually c.guard q ⟨R, f, M, c.place l⟩)
    (miss : ¬ rel (R r % w.span) (w.ofInt v) → ∀ f k, Lies c k rest b →
      Eventually c.guard q ⟨R, f, M, k⟩) :
    Eventually c.guard q ⟨R, f, M, a⟩ := by
  obtain ⟨answer, hanswer, hiff⟩ :=
    hrel w (R r % w.span) (w.ofInt v) (Nat.mod_lt _ w.span_pos) (w.ofInt_lt v)
  refine h.next hc hM ⟨by decide, hv⟩ (by simp [Instruction.memory?, Operand.memory?])
    fun k _ hk => ⟨⟨R, .compare w (R r % w.span) (w.ofInt v), M, k⟩, ?_, ?_⟩
  · simp [Machine.execute, Machine.alu, Machine.fetch, hr, Alu.apply?, Alu.cmp,
      Machine.get, Flags.compare]
  · exact hk.branch hi hc hM hcond hanswer (fun ht => hit (hiff.1 ht) _)
      fun hf k hk => miss (fun hrel => by simp [hiff.2 hrel] at hf) _ k hk

theorem Lies.compareJump {rel : ℕ → ℕ → Prop} {v : ℤ} (hrel : cond.Compares rel)
    (h : Lies c a (.code (.aluImmediate .cmp w (.register r) v) ::
      .code (.jccShort cond l) :: rest) b) (hc : c.Sound) (hM : c.Intact M)
    (hr : Machine.isPlain w r = true) (hv : w.Holds v) (hcond : cond.number.toNat < 16)
    (hit : rel (R r % w.span) (w.ofInt v) → ∀ f, Eventually c.guard q ⟨R, f, M, c.place l⟩)
    (miss : ¬ rel (R r % w.span) (w.ofInt v) → ∀ f k, Lies c k rest b →
      Eventually c.guard q ⟨R, f, M, k⟩) :
    Eventually c.guard q ⟨R, f, M, a⟩ :=
  h.compareBranch hrel (.inl rfl) hc hM hr hv hcond hit miss

/-- A register is tested and the code jumps on the outcome. -/
theorem Lies.testBranch {i : Instruction} {rel : Width → ℕ → Prop} (hrel : cond.Tests rel)
    (h : Lies c a (.code (.test w r r) :: .code i :: rest) b)
    (hi : i = .jccShort cond l ∨ i = .jcc cond l) (hc : c.Sound) (hM : c.Intact M)
    (hr : Machine.isPlain w r = true) (hcond : cond.number.toNat < 16)
    (hit : rel w (R r % w.span) → ∀ f, Eventually c.guard q ⟨R, f, M, c.place l⟩)
    (miss : ¬ rel w (R r % w.span) → ∀ f k, Lies c k rest b → Eventually c.guard q ⟨R, f, M, k⟩) :
    Eventually c.guard q ⟨R, f, M, a⟩ := by
  obtain ⟨answer, hanswer, hiff⟩ := hrel w (R r % w.span)
  refine h.next hc hM trivial (by simp [Instruction.memory?]) fun k _ hk =>
    ⟨⟨R, .ofResult w (R r % w.span) (some false) (some false), M, k⟩, ?_, ?_⟩
  · simp [Machine.execute, Machine.fetch, hr, Machine.get]
  · exact hk.branch hi hc hM hcond hanswer (fun ht => hit (hiff.1 ht) _)
      fun hf k hk => miss (fun hrel => by simp [hiff.2 hrel] at hf) _ k hk

/-- A register is tested and the code jumps if it is zero. -/
theorem Lies.testJump (h : Lies c a (.code (.test w r r) :: .code (.jccShort .equal l) :: rest) b)
    (hc : c.Sound) (hM : c.Intact M) (hr : Machine.isPlain w r = true)
    (hit : R r % w.span = 0 → ∀ f, Eventually c.guard q ⟨R, f, M, c.place l⟩)
    (miss : R r % w.span ≠ 0 → ∀ f k, Lies c k rest b → Eventually c.guard q ⟨R, f, M, k⟩) :
    Eventually c.guard q ⟨R, f, M, a⟩ :=
  h.testBranch Condition.equal_tests (.inl rfl) hc hM hr (by decide) hit miss

/-- The low byte of the first register is looked up among bytes. -/
theorem Lies.jumpAmong {bs : List ℤ} {m : Mark} (h : Lies c a (jumpOnByte bs m ++ rest) b)
    (hc : c.Sound) (hM : c.Intact M) (hbs : ∀ v ∈ bs, 0 ≤ v ∧ v < 256)
    (hit : ((R .rax % 256 : ℕ) : ℤ) ∈ bs → ∀ f, Eventually c.guard q ⟨R, f, M, c.place m.label⟩)
    (miss : ((R .rax % 256 : ℕ) : ℤ) ∉ bs → ∀ f k, Lies c k rest b →
      Eventually c.guard q ⟨R, f, M, k⟩) :
    Eventually c.guard q ⟨R, f, M, a⟩ := by
  have hspan : Width.span .byte = 256 := by decide
  induction bs generalizing a f with
  | nil => exact miss (by simp) f a h
  | cons v bs ih =>
    have hv := hbs v (by simp)
    have hof : (Width.ofInt .byte v : ℤ) = v := by simp only [Width.ofInt, hspan]; omega
    refine Lies.compareJump Condition.equal_compares h hc hM rfl (by simp [Width.Holds]) (by decide)
      (fun heq => hit ?_) fun hne f k hk => ih hk (fun u hu => hbs u (by simp [hu])) ?_ ?_
    · rw [hspan] at heq
      rw [heq, hof]
      simp
    · exact fun hmem => hit (List.mem_cons_of_mem _ hmem)
    · intro hmem
      refine miss ?_
      rw [hspan] at hne
      simp only [List.mem_cons, hmem, or_false]
      omega

end Jumps

section Stack

variable {sp : ℕ}

theorem toNatLE_pointer {v : ℕ} (hv : v < c.guard.space) :
    (Bytes.littleEndian (c.word) v).toNatLE = v := by
  rw [Bytes.toNatLE_littleEndian]
  exact Nat.mod_eq_of_lt hv

theorem pushed_eq {k v : ℕ} (hsp : R .rsp = sp) (hlow : c.word ≤ sp) (hhigh : sp < c.guard.space)
    (hw : c.Owns (sp - c.word) (c.word)) :
    Machine.pushed c.guard ⟨R, f, M, k⟩ v = some ⟨Function.update R .rsp (sp - c.word), f,
      splice M (sp - c.word) (Bytes.littleEndian (c.word) v), k⟩ := by
  have hget : Machine.get ⟨R, f, M, k⟩ c.guard.mode.pointer .rsp = sp := by
    rw [← hsp]
    exact Nat.mod_eq_of_lt (by change R .rsp < c.guard.space; omega)
  have htop : (sp + c.guard.mode.pointer.span - c.guard.mode.pointer.size) %
      c.guard.mode.pointer.span = sp - c.word := by
    change (sp + c.guard.space - c.word) % c.guard.space = _
    rw [show sp + c.guard.space - c.word = sp - c.word + c.guard.space by omega,
      Nat.add_mod_right, Nat.mod_eq_of_lt (by omega)]
  have hmod : (sp - c.word) % c.guard.mode.pointer.span = sp - c.word :=
    Nat.mod_eq_of_lt (by change _ < c.guard.space; omega)
  simp only [Machine.pushed, hget, htop, Machine.set_eq, c.guard.mode.isWide_pointer.merge, hmod]
  exact store_eq (by change _ + c.word ≤ _; omega) fun i hi => (hw i hi).2

theorem popped_eq {k v : ℕ} (hsp : R .rsp = sp) (hhigh : sp + c.word < c.guard.space)
    (hr : ∀ i < c.word, c.guard.readable (sp + i) = true) (hM : c.Stores M sp v)
    (hv : v < c.guard.space) :
    Machine.popped c.guard ⟨R, f, M, k⟩ =
      some (v, ⟨Function.update R .rsp (sp + c.word), f, M, k⟩) := by
  have hget : Machine.get ⟨R, f, M, k⟩ c.guard.mode.pointer .rsp = sp := by
    rw [← hsp]
    exact Nat.mod_eq_of_lt (by change R .rsp < c.guard.space; omega)
  have hload : Machine.load c.guard ⟨R, f, M, k⟩ c.guard.mode.pointer sp = some v := by
    rw [← toNatLE_pointer hv]
    exact load_eq (by simp [Site.word]) (by simpa using hhigh.le)
      (by simpa using hr) (by simpa [Site.Stores] using hM)
  have hmod : (sp + c.guard.mode.pointer.size) % c.guard.mode.pointer.span = sp + c.word :=
    Nat.mod_eq_of_lt (by exact hhigh)
  simp [Machine.popped, hget, hload, Machine.set_eq, c.guard.mode.isWide_pointer.merge, hmod]

theorem Lies.push (h : Lies c a (.code (.push r) :: rest) b) (hc : c.Sound) (hM : c.Intact M)
    (hsp : R .rsp = sp) (hlow : c.word ≤ sp) (hhigh : sp < c.guard.space)
    (hw : c.Owns (sp - c.word) (c.word))
    (after : ∀ k, Lies c k rest b → Eventually c.guard q ⟨Function.update R .rsp (sp - c.word), f,
      splice M (sp - c.word) (Bytes.littleEndian (c.word) (R r % c.guard.space)), k⟩) :
    Eventually c.guard q ⟨R, f, M, a⟩ :=
  h.next hc hM trivial (by simp [Instruction.memory?]) fun k _ hk =>
    ⟨_, pushed_eq hsp hlow hhigh hw, after k hk⟩

theorem Lies.call {l : ℤ} (h : Lies c a (.code (.call l) :: rest) b) (hc : c.Sound)
    (hM : c.Intact M)
    (hsp : R .rsp = sp) (hlow : c.word ≤ sp) (hhigh : sp < c.guard.space)
    (hw : c.Owns (sp - c.word) (c.word))
    (after : ∀ k, k < c.guard.space → Lies c k rest b →
      Eventually c.guard q ⟨Function.update R .rsp (sp - c.word), f,
        splice M (sp - c.word) (Bytes.littleEndian (c.word) k), c.place l⟩) :
    Eventually c.guard q ⟨R, f, M, a⟩ := by
  refine h.next hc hM trivial (by simp [Instruction.memory?]) fun k hlt hk => ?_
  have hpush := @pushed_eq c R f M sp k k hsp hlow hhigh hw
  exact ⟨_, by simp only [Machine.execute, hpush]; rfl, after k hlt hk⟩

theorem Lies.pop {v : ℕ} (h : Lies c a (.code (.pop r) :: rest) b) (hc : c.Sound) (hM : c.Intact M)
    (hsp : R .rsp = sp) (hhigh : sp + c.word < c.guard.space)
    (hr : ∀ i < c.word, c.guard.readable (sp + i) = true) (hv : c.Stores M sp v)
    (hlt : v < c.guard.space)
    (after : ∀ k, Lies c k rest b → Eventually c.guard q
      ⟨Function.update (Function.update R .rsp (sp + c.word)) r v, f, M, k⟩) :
    Eventually c.guard q ⟨R, f, M, a⟩ := by
  refine h.next hc hM trivial (by simp [Instruction.memory?]) fun k _ hk => ?_
  have hpop := @popped_eq c R f M sp k v hsp hhigh hr hv hlt
  refine ⟨_, ?_, after k hk⟩
  have hmod : v % c.guard.mode.pointer.span = v := Nat.mod_eq_of_lt hlt
  simp [Machine.execute, hpop, Machine.set_eq, c.guard.mode.isWide_pointer.merge, hmod]

theorem Lies.ret {v : ℕ} (h : Lies c a (.code .ret :: rest) b) (hc : c.Sound) (hM : c.Intact M)
    (hsp : R .rsp = sp) (hhigh : sp + c.word < c.guard.space)
    (hr : ∀ i < c.word, c.guard.readable (sp + i) = true) (hv : c.Stores M sp v)
    (hlt : v < c.guard.space)
    (after : Eventually c.guard q ⟨Function.update R .rsp (sp + c.word), f, M, v⟩) :
    Eventually c.guard q ⟨R, f, M, a⟩ := by
  refine h.next hc hM trivial (by simp [Instruction.memory?]) fun k _ _ => ?_
  have hpop := @popped_eq c R f M sp k v hsp hhigh hr hv hlt
  exact ⟨_, by simp [Machine.execute, hpop], after⟩

end Stack

end PortCodec.Program
