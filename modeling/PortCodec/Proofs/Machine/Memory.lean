import PortCodec.Proofs.Cell
import PortCodec.Proofs.Machine.Execution

/-! Memory below the end of the address space, where nothing wraps around: putting bytes replaces a
range and leaves the rest alone. -/

namespace PortCodec.X86

def splice (memory : ℕ → UInt8) (x : ℕ) (bs : Bytes) (y : ℕ) : UInt8 :=
  if x ≤ y ∧ y < x + bs.length then bs.byteAt (y - x) else memory y

variable {space : ℕ} {memory : ℕ → UInt8} {x y : ℕ} {bs : Bytes}

theorem splice_outside (h : y < x ∨ x + bs.length ≤ y) : splice memory x bs y = memory y :=
  if_neg (by omega)

theorem splice_inside {i : ℕ} (h : i < bs.length) : splice memory x bs (x + i) = bs.byteAt i := by
  rw [splice, if_pos (by omega), Nat.add_sub_cancel_left]

theorem splice_nil : splice memory x [] = memory := by
  funext y
  exact splice_outside (by simp; omega)

/-- Bytes behind bytes. -/
theorem splice_append {cs : Bytes} :
    splice (splice memory x bs) (x + bs.length) cs = splice memory x (bs ++ cs) := by
  funext y
  by_cases hcs : y < x + bs.length ∨ x + bs.length + cs.length ≤ y
  · rw [splice_outside hcs]
    by_cases hbs : y < x ∨ x + bs.length ≤ y
    · rw [splice_outside hbs, splice_outside (by simp; omega)]
    · obtain ⟨i, rfl⟩ : ∃ i, y = x + i := ⟨y - x, by omega⟩
      rw [splice_inside (by omega), splice_inside (by simp; omega)]
      simp [Bytes.byteAt, List.getElem?_append_left (show i < bs.length by omega)]
  · obtain ⟨i, rfl⟩ : ∃ i, y = x + bs.length + i := ⟨y - (x + bs.length), by omega⟩
    rw [splice_inside (by omega), Nat.add_assoc, splice_inside (by simp; omega)]
    simp [Bytes.byteAt, List.getElem?_append_right]

/-- Bytes in the place of others. -/
theorem splice_over {cs : Bytes} (h : bs.length = cs.length) :
    splice (splice memory x bs) x cs = splice memory x cs := by
  funext y
  by_cases hcs : y < x ∨ x + cs.length ≤ y
  · rw [splice_outside hcs, splice_outside hcs, splice_outside (by omega)]
  · obtain ⟨i, rfl⟩ : ∃ i, y = x + i := ⟨y - x, by omega⟩
    rw [splice_inside (by omega), splice_inside (by omega)]

theorem poke_eq (h : x + bs.length ≤ space) : poke space memory x bs = splice memory x bs := by
  induction bs generalizing memory x with
  | nil =>
    funext y
    exact (splice_outside (by simp; omega)).symm
  | cons b rest ih =>
    simp only [List.length_cons] at h
    have hx : x % space = x := Nat.mod_eq_of_lt (by omega)
    rw [poke_cons, ih (by omega), hx]
    funext y
    unfold splice
    rcases Nat.lt_trichotomy y x with hlt | rfl | hgt
    · rw [if_neg (by omega), if_neg (by simp; omega), Function.update_of_ne (by omega)]
    · rw [if_neg (by omega), if_pos (by simp), Function.update_self]
      simp [Bytes.byteAt]
    · obtain ⟨k, rfl⟩ : ∃ k, y = x + 1 + k := ⟨y - (x + 1), by omega⟩
      have h1 : x + 1 + k - (x + 1) = k := by omega
      have h2 : x + 1 + k - x = k + 1 := by omega
      rw [Function.update_of_ne (by omega), h1, h2]
      by_cases hk : k < rest.length
      · rw [if_pos (by omega), if_pos (by simp; omega)]
        simp [Bytes.byteAt]
      · rw [if_neg (by omega), if_neg (by simp; omega)]

theorem length_peek (n : ℕ) : (peek space memory x n).length = n := by
  induction n generalizing x with
  | zero => rfl
  | succ n ih => simp [peek, ih]

/-- What stands in memory is what is looked at. -/
theorem peek_eq (hx : x + bs.length ≤ space) (h : ∀ i < bs.length, memory (x + i) = bs.byteAt i) :
    peek space memory x bs.length = bs := by
  induction bs generalizing x with
  | nil => rfl
  | cons b rest ih =>
    simp only [List.length_cons] at hx h
    have h0 : memory x = b := by simpa [Bytes.byteAt] using h 0 (by omega)
    rw [List.length_cons, peek, Nat.mod_eq_of_lt (by omega), h0, ih (by omega)]
    intro i hi
    have := h (i + 1) (by omega)
    rw [show x + 1 + i = x + (i + 1) by omega]
    simpa [Bytes.byteAt] using this

theorem toNatLE_lt (bs : Bytes) : bs.toNatLE < 256 ^ bs.length := by
  induction bs with
  | nil => decide
  | cons b rest ih =>
    have := b.toNat_lt
    rw [Bytes.toNatLE, List.length_cons, Nat.pow_succ]
    omega

/-- Looking does not depend on bytes elsewhere. -/
theorem peek_ext {memory' : ℕ → UInt8} {n : ℕ}
    (h : ∀ i < n, memory' ((x + i) % space) = memory ((x + i) % space)) :
    peek space memory' x n = peek space memory x n := by
  induction n generalizing x with
  | zero => rfl
  | succ n ih =>
    have h0 := h 0 (by omega)
    rw [Nat.add_zero] at h0
    rw [peek, peek, h0, ih]
    intro i hi
    have := h (i + 1) (by omega)
    rwa [← Nat.add_assoc, Nat.add_right_comm] at this

theorem peek_congr {memory' : ℕ → UInt8} {n : ℕ} (hx : x + n ≤ space)
    (h : ∀ i < n, memory' (x + i) = memory (x + i)) :
    peek space memory' x n = peek space memory x n := by
  refine peek_ext fun i hi => ?_
  rw [Nat.mod_eq_of_lt (by omega)]
  exact h i hi

theorem allows_of {g : Guard} {q : ℕ → Bool} {n : ℕ} (hx : x + n ≤ g.space)
    (h : ∀ i < n, q (x + i) = true) : g.allows q x n = true := by
  simp only [Guard.allows, List.all_eq_true, List.mem_range]
  intro i hi
  rw [Nat.mod_eq_of_lt (by omega)]
  exact h i hi

section Span

structure Span where
  start : ℕ
  length : ℕ

namespace Span

def stop (s : Span) : ℕ := s.start + s.length

def contains (s : Span) (x : ℕ) : Bool := s.start ≤ x && x < s.stop

def Apart (s t : Span) : Prop := s.stop ≤ t.start ∨ t.stop ≤ s.start

theorem contains_iff {s : Span} {x : ℕ} : s.contains x = true ↔ s.start ≤ x ∧ x < s.stop := by
  simp [contains]

theorem contains_eq_false_iff {s : Span} {x : ℕ} :
    s.contains x = false ↔ x < s.start ∨ s.stop ≤ x := by
  rw [← Bool.not_eq_true, contains_iff]
  omega

theorem Apart.contains_eq_false {s t : Span} {x : ℕ} (h : s.Apart t) (hx : s.contains x = true) :
    t.contains x = false := by
  rw [contains_iff] at hx
  rw [contains_eq_false_iff]
  rcases h with h | h <;> omega

theorem Apart.symm {s t : Span} (h : s.Apart t) : t.Apart s := Or.symm h

end Span

/-- Bytes lie in memory from an address on. -/
def Lays (memory : ℕ → UInt8) (a : ℕ) (bs : Bytes) : Prop :=
  ∀ i < bs.length, memory (a + i) = bs.byteAt i

theorem Lays.append {a : ℕ} {cs : Bytes} (h : Lays memory a bs)
    (h' : Lays memory (a + bs.length) cs) :
    Lays memory a (bs ++ cs) := by
  intro i hi
  rw [List.length_append] at hi
  by_cases hin : i < bs.length
  · rw [h i hin]
    simp [Bytes.byteAt, List.getElem?_append_left hin]
  · have hrest := h' (i - bs.length) (by omega)
    rw [Nat.add_assoc, Nat.add_sub_cancel' (not_lt.1 hin)] at hrest
    rw [hrest]
    simp [Bytes.byteAt, List.getElem?_append_right (not_lt.1 hin)]

theorem Lays.drop {a : ℕ} (h : Lays memory a bs) (n : ℕ) : Lays memory (a + n) (bs.drop n) := by
  intro i hi
  rw [List.length_drop] at hi
  rw [Nat.add_assoc, h (n + i) (by omega)]
  simp [Bytes.byteAt]

def written (parts : List (ℕ × Bytes)) : ℕ → UInt8 :=
  parts.foldr (fun p M => splice M p.1 p.2) fun _ => 0

theorem lays_written {parts : List (ℕ × Bytes)} {p : ℕ × Bytes}
    (h : parts.Pairwise fun p q => Span.Apart ⟨p.1, p.2.length⟩ ⟨q.1, q.2.length⟩)
    (hp : p ∈ parts) :
    Lays (written parts) p.1 p.2 := by
  induction parts with
  | nil => cases hp
  | cons q rest ih =>
    obtain ⟨hq, hrest⟩ := List.pairwise_cons.1 h
    intro i hi
    rcases List.mem_cons.1 hp with rfl | hp
    · exact splice_inside hi
    · have hapart := hq p hp
      simp only [Span.Apart, Span.stop] at hapart
      have hout : written (q :: rest) (p.1 + i) = written rest (p.1 + i) :=
        splice_outside (by omega)
      rw [hout]
      exact ih hrest hp i hi

end Span

end PortCodec.X86
