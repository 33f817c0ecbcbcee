import Mathlib.Data.Nat.Digits.Lemmas
import PortCodec.Proofs.Access
import PortCodec.Proofs.RoundTrip

/-! Lines spell values. A line is written by the program of a layout, and a control is read through
the index; the line of a state is still what one gets by reading its controls one after the other
and writing down each value. -/

namespace PortCodec

namespace Decimal

/-- A number by its decimal digits, none of them a leading zero, behind a minus if it is
negative. -/
def numeral (n : ℤ) : Bytes :=
  (if n < 0 then [45] else []) ++
    if n = 0 then [48] else (Nat.digits 10 n.natAbs).reverse.map fun d => UInt8.ofNat (48 + d)

theorem natural_eq_digits {n : ℕ} (h : 0 < n) :
    natural n = (Nat.digits 10 n).reverse.map fun d => UInt8.ofNat (48 + d) := by
  fun_induction natural n with
  | case1 n hn => simp [Nat.digits_of_lt 10 n h.ne' hn, digit, Nat.mod_eq_of_lt hn]
  | case2 n hn ih =>
    rw [ih (by omega), Nat.digits_def' (by norm_num) h]
    simp [digit]

theorem signed_eq_numeral (n : ℤ) : signed n = numeral n := by
  cases n with
  | ofNat n =>
    rcases Nat.eq_zero_or_pos n with rfl | hn
    · simp [signed, numeral, natural, digit]
    · have hz : ¬ Int.ofNat n = 0 := by simpa using hn.ne'
      have hneg : ¬ Int.ofNat n < 0 := by simp
      rw [signed, numeral, natural_eq_digits hn, if_neg hneg, if_neg hz]
      rfl
  | negSucc n =>
    simp [signed, numeral, natural_eq_digits (Nat.succ_pos n), Int.negSucc_lt_zero]

end Decimal

namespace Layout
open Bytes Decimal Line Entry

/-- What a line has for a control of a value. A button stands for itself or is a dot. -/
def controlText (c : Control) (v : Int16) : Bytes :=
  match c.kind with
  | .button => if v = 1 then [c.movie] else if v = 0 then [46] else []
  | .axis | .reverseAxis | .triggerAxis | .lightgunAxis => 32 :: numeral v.toInt
  | .null | .unknown _ => []

def controlsText (cs : List Control) (i : ℕ) (value : ℕ → Int16) : Bytes :=
  (cs.zipIdx i).flatMap fun (c, j) => controlText c (value j)

/-- The line of a port whose controls have the given values. The first controller of a port that
fits slot 0 has no separator in front. -/
def valuesText (p : Port) (value : ℕ → ℕ → Int16) : Bytes :=
  p.controllers.zipIdx.flatMap fun (d, k) =>
    (if k = 0 ∧ p.isLegal 0 = true then [] else [124]) ++ controlsText d.controls 0 (value k)

variable {p : Port} {s : Bytes}

theorem text_spelling {e : Entry} {c : Control} (h : e.kind = c.kind) (s : Bytes) :
    (spelling e c.movie).flatMap (stepText s) = controlText c (e.fetch s) := by
  unfold spelling controlText fetch
  rw [h]
  cases c.kind <;> simp [Kind.isAxis, stepText, axisText, signed_eq_numeral]
  split_ifs <;> simp_all

theorem text_spellControls {k i : ℕ} {cs : List Control}
    (h : ∀ j c, cs[j]? = some c → controlAt? p k (i + j) = some c) :
    (spellControls (plan p) k i cs).flatMap (stepText s) =
      controlsText cs i fun j => (plan p).read s k j := by
  induction cs generalizing i with
  | nil => rfl
  | cons c cs ih =>
    obtain ⟨e, he, hkind, -⟩ := exists_entry (h 0 c rfl)
    have hrest := @ih (i + 1) fun j x hx => by
      rw [Nat.add_assoc, Nat.add_comm 1]
      exact h (j + 1) x hx
    rw [Nat.add_zero] at he
    have hread : (plan p).read s k i = e.fetch s := by rw [read_eq, he]
    rw [spellControls_cons _ _ _ _ _ he, List.flatMap_append, text_spelling hkind, hrest, ← hread]
    simp [controlsText]

/-- The row of a controller is the text of its controls. -/
theorem text_row {d : Controller} {k : ℕ} (h : p.controllers[k]? = some d) (s : Bytes) :
    (spellControls (plan p) k 0 d.controls).flatMap (stepText s) =
      controlsText d.controls 0 fun i => (plan p).read s k i :=
  text_spellControls fun j c hc => by simp [controlAt?, h, hc]

/-- A line is the values of the controls, in the order of declaration. -/
theorem serialize_eq_values (p : Port) (s : Bytes) :
    (plan p).serialize s = valuesText p fun k i => (plan p).read s k i := by
  rw [serialize_eq_body, body_eq_spelling, valuesText]
  cases hc : p.controllers with
  | nil => simp [List.intercalate]
  | cons d ds =>
    have hfirst := text_row (p := p) (k := 0) (d := d) (by simp [hc]) s
    -- behind the first controller every one has a separator in front
    have hrest : ((ds.zipIdx 1).flatMap fun (c, k) =>
          Step.pipe :: spellControls (plan p) k 0 c.controls).flatMap (stepText s) =
        (ds.zipIdx 1).flatMap fun (c, k) => (if k = 0 ∧ p.isLegal 0 = true then [] else [124]) ++
          controlsText c.controls 0 fun i => (plan p).read s k i := by
      rw [List.flatMap_assoc]
      refine List.flatMap_congr fun x hx => ?_
      obtain ⟨c, k⟩ := x
      obtain ⟨hk, hget⟩ := List.mem_zipIdx_iff_le_and_getElem?_sub.1 hx
      have hrow := text_row (p := p) (k := k) (d := c) (by
        rw [hc, show k = k - 1 + 1 by omega]
        exact hget) s
      have hk0 : k ≠ 0 := Nat.one_le_iff_ne_zero.1 hk
      simp [hrow, hk0, stepText]
    rw [List.zipIdx_cons, List.map_cons, intercalate_cons, List.flatMap_map, List.flatMap_append,
      List.flatMap_append, hrest, hfirst]
    cases h0 : p.isLegal 0 <;> simp [stepText]

end Layout
end PortCodec
