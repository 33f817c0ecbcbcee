import PortCodec.Proofs.FieldReading
import PortCodec.Proofs.Storage

/-! The bytes that identify a layout leave out every place and mask, and the length of the program.
They still tell all of it: a program is over at its first end, and the places follow from the order
of the steps and of the kinds in the index. -/

namespace PortCodec

theorem Bytes.littleEndian_inj {k m n : ℕ} (hm : m < 256 ^ k) (hn : n < 256 ^ k)
    (h : littleEndian k m = littleEndian k n) : m = n := by
  have hv := congrArg toNatLE h
  rwa [toNatLE_littleEndian, toNatLE_littleEndian, Nat.mod_eq_of_lt hm, Nat.mod_eq_of_lt hn] at hv

/-- A kind that controls of a usable port can have. -/
def Kind.IsKnown (k : Kind) : Prop := ∀ code, k ≠ .unknown code

theorem Kind.code_inj {a b : Kind} (ha : a.IsKnown) (hb : b.IsKnown)
    (h : a.code = b.code) : a = b := by
  cases a with
  | unknown n => exact absurd rfl (ha n)
  | _ =>
    cases b with
    | unknown n => exact absurd rfl (hb n)
    | _ => first | rfl | exact absurd h (by decide)

theorem Control.isKnown_of_fault?_eq_none {c : Control} (h : c.fault? = none) : c.kind.IsKnown := by
  intro code hk
  simp [Control.fault?, hk] at h

namespace Step

/-- What the identity of a layout tells of a step. -/
def sign (s : Step) : UInt8 × UInt8 := (s.code, s.char)

theorem isEnd_iff_code (s : Step) : s.isEnd = true ↔ 4 ≤ s.code := by
  cases s <;> simp [isEnd, code]

theorem mark_inj {s t : Step} (hs : s.isMark = true) (ht : t.isMark = true) (h : s.code = t.code) :
    s = t := by
  cases s <;> simp [isMark] at hs <;> cases t <;> simp [isMark] at ht <;>
    first | rfl | exact absurd h (by decide)

/-- Steps with places and marks have different signs. -/
theorem isMark_of_sign {s t : Step} (h : s.sign = t.sign) (hs : s.isMark = true) :
    t.isMark = true := by
  have hcode : s.code = t.code := congrArg Prod.fst h
  cases t <;> first | rfl | (cases s <;> simp_all [isMark, code])

end Step

namespace Layout
open Bytes

/-- The signs of a program end with the program, whatever comes behind them. -/
theorem signs_append_inj {xs ys : List Step} {x y : Step} {u v : Bytes}
    (hxs : ∀ s ∈ xs, s.isEnd = false) (hys : ∀ s ∈ ys, s.isEnd = false) (hx : x.isEnd = true)
    (hy : y.isEnd = true)
    (h : (xs ++ [x]).flatMap (fun s => [s.code, s.char]) ++ u =
      (ys ++ [y]).flatMap (fun s => [s.code, s.char]) ++ v) :
    (xs ++ [x]).map Step.sign = (ys ++ [y]).map Step.sign ∧ u = v := by
  induction xs generalizing ys with
  | nil =>
    cases ys with
    | nil =>
      simp only [List.nil_append, List.flatMap_singleton, List.cons_append, List.cons.injEq] at h
      obtain ⟨hcode, hchar, huv⟩ := h
      exact ⟨by simp [Step.sign, hcode, hchar], huv⟩
    | cons b ys =>
      simp only [List.nil_append, List.flatMap_cons, List.cons_append, List.cons.injEq] at h
      have hb := hys b (by simp)
      rw [Step.isEnd_iff_code, h.1, ← Step.isEnd_iff_code, hb] at hx
      simp at hx
  | cons a xs ih =>
    cases ys with
    | nil =>
      simp only [List.nil_append, List.flatMap_cons, List.cons_append, List.cons.injEq] at h
      have ha := hxs a (by simp)
      rw [Step.isEnd_iff_code, ← h.1, ← Step.isEnd_iff_code, ha] at hy
      simp at hy
    | cons b ys =>
      simp only [List.cons_append, List.flatMap_cons, List.nil_append, List.cons.injEq] at h
      obtain ⟨hcode, hchar, hrest⟩ := h
      obtain ⟨hsigns, huv⟩ :=
        ih (fun s hs => hxs s (by simp [hs])) (fun s hs => hys s (by simp [hs])) hrest
      refine ⟨?_, huv⟩
      rw [List.cons_append, List.cons_append, List.map_cons, List.map_cons, hsigns]
      simp [Step.sign, hcode, hchar]

/-- Steps that take their places in order are known from their signs. -/
theorem Laid.eq_of_signs {base : ℕ} {p q r : Placed} {xs ys : List Step} (hx : Laid base p xs q)
    (hy : Laid base p ys r) (h : xs.map Step.sign = ys.map Step.sign) : xs = ys := by
  induction hx generalizing ys r with
  | nil p =>
    cases ys with
    | nil => rfl
    | cons y ys => simp at h
  | @button b a char steps q hc rest ih =>
    cases hy with
    | nil => simp at h
    | @button _ _ char' steps' _ hc' rest' =>
      simp only [List.map_cons, List.cons.injEq, Step.sign, Step.char, Prod.mk.injEq] at h
      rw [ih rest' h.2, h.1.2]
    | axis rest' => simp [Step.sign, Step.code] at h
    | mark hm rest' =>
      have := Step.isMark_of_sign (List.cons.inj h).1.symm hm
      simp [Step.isMark] at this
  | @axis b a steps q rest ih =>
    cases hy with
    | nil => simp at h
    | button hc' rest' => simp [Step.sign, Step.code] at h
    | axis rest' => rw [ih rest' (List.cons.inj h).2]
    | mark hm rest' =>
      have := Step.isMark_of_sign (List.cons.inj h).1.symm hm
      simp [Step.isMark] at this
  | @mark m p q steps hm rest ih =>
    cases ys with
    | nil => simp at h
    | cons y ys =>
      obtain ⟨hsign, htail⟩ := List.cons.inj h
      have hmark := Step.isMark_of_sign hsign hm
      cases hy with
      | button hc' rest' => simp [Step.isMark] at hmark
      | axis rest' => simp [Step.isMark] at hmark
      | mark hm' rest' => rw [ih rest' htail, Step.mark_inj hm hm' (congrArg Prod.fst hsign)]

theorem map_kind_slotEntries (base stride n : ℕ) (placed : Placed) (ks : List Kind) :
    (slotEntries base stride n placed ks).map (·.kind) = ks := by
  induction ks generalizing n placed with
  | nil => rfl
  | cons k ks ih =>
    rw [slotEntries, List.map_cons, ih, slotEntry, place]
    split_ifs <;> rfl

theorem slotKinds_eq (p : Port) :
    slotKinds (plan p).stride p.controllers = (plan p).index.map (·.kind) := by
  rw [plan_index_eq, map_kind_slotEntries]

theorem isKnown_of_mem_index {p : Port} (hv : p.Valid) {e : Entry} (he : e ∈ (plan p).index) :
    e.kind.IsKnown := by
  have hk : e.kind ∈ slotKinds (plan p).stride p.controllers := by
    rw [slotKinds_eq]
    exact List.mem_map_of_mem he
  obtain ⟨c, hc, hk⟩ := List.mem_flatMap.1 hk
  rcases List.mem_append.1 hk with hk | hk
  · obtain ⟨b, hb, hk⟩ := List.mem_map.1 hk
    exact hk ▸ Control.isKnown_of_fault?_eq_none (hv.2 c hc b hb)
  · rw [List.eq_of_mem_replicate hk]
    intro code
    simp

theorem map_kind_eq_of_codes {xs ys : List Entry} (hx : ∀ e ∈ xs, e.kind.IsKnown)
    (hy : ∀ e ∈ ys, e.kind.IsKnown) (h : xs.map (·.kind.code) = ys.map (·.kind.code)) :
    xs.map (·.kind) = ys.map (·.kind) := by
  induction xs generalizing ys with
  | nil =>
    cases ys with
    | nil => rfl
    | cons y ys => simp at h
  | cons x xs ih =>
    cases ys with
    | nil => simp at h
    | cons y ys =>
      simp only [List.map_cons, List.cons.injEq] at h ⊢
      exact ⟨Kind.code_inj (hx x (by simp)) (hy y (by simp)) h.1,
        ih (fun e he => hx e (by simp [he])) (fun e he => hy e (by simp [he])) h.2⟩

/-- A plan is known from its numbers, the signs of its program and the kinds of its index. -/
theorem plan_eq_of_signs {p q : Port} (hp : p.Valid) (hq : q.Valid)
    (hc : (plan p).controllers = (plan q).controllers) (hs : (plan p).stride = (plan q).stride)
    (hy : (plan p).system = (plan q).system)
    (hprog : (plan p).program.map Step.sign = (plan q).program.map Step.sign)
    (hkind : (plan p).index.map (·.kind) = (plan q).index.map (·.kind)) : plan p = plan q := by
  have hks := hkind
  rw [← slotKinds_eq, ← slotKinds_eq] at hks
  have hbits : (plan p).buttonBits = (plan q).buttonBits := by
    rw [plan_buttonBits, plan_buttonBits, hks]
  have haxes : (plan p).axes = (plan q).axes := by
    rw [plan_axes, plan_axes, hks]
  have hsize : (plan p).storageSize = (plan q).storageSize := by
    rw [plan_storageSize, plan_storageSize, hbits, haxes]
  have hindex : (plan p).index = (plan q).index := by
    rw [plan_index_eq p, plan_index_eq q, hks, hbits, hs]
  have hprogram : (plan p).program = (plan q).program := by
    apply (plan_laid hp).eq_of_signs (r := ⟨(plan q).buttonBits, (plan q).axes⟩) _ hprog
    rw [hbits]
    exact plan_laid hq
  calc plan p = ⟨(plan p).storageSize, (plan p).buttonBits, (plan p).axes, (plan p).controllers,
        (plan p).stride, (plan p).system, (plan p).index, (plan p).program⟩ := rfl
    _ = plan q := by rw [hsize, hbits, haxes, hc, hs, hy, hindex, hprogram]

/-- The identity of a plan can be taken apart. -/
theorem plan_eq_of_identity {p q : Port} (hp : p.Valid) (hq : q.Valid)
    (hpc : (plan p).controllers < 2 ^ 32) (hqc : (plan q).controllers < 2 ^ 32)
    (hps : (plan p).stride < 2 ^ 32) (hqs : (plan q).stride < 2 ^ 32)
    (h : (plan p).identity = (plan q).identity) : plan p = plan q := by
  simp only [identity, List.append_assoc] at h
  obtain ⟨hcontrollers, h⟩ := List.append_inj h (by simp)
  obtain ⟨hstride, h⟩ := List.append_inj h (by simp)
  obtain ⟨hsystem, h⟩ := List.append_inj h (by simp)
  rw [plan_program, plan_program] at h
  obtain ⟨hsigns, hcodes⟩ := signs_append_inj (body_isEnd p) (body_isEnd q) (lastStep_isEnd p)
    (lastStep_isEnd q) h
  apply plan_eq_of_signs hp hq
  · exact littleEndian_inj (k := 4) (by norm_num; exact hpc) (by norm_num; exact hqc) hcontrollers
  · exact littleEndian_inj (k := 4) (by norm_num; exact hps) (by norm_num; exact hqs) hstride
  · cases hs : (plan p).system <;> cases ht : (plan q).system <;> simp_all
  · exact hsigns
  · exact map_kind_eq_of_codes (fun e he => isKnown_of_mem_index hp he)
      (fun e he => isKnown_of_mem_index hq he) hcodes

/-- Two ports have the same identity exactly when they have the same layout, and so they have the
same fingerprint, unless the digest takes their two identities to one value. -/
theorem identity_eq_iff {p q : Port} (hp : p.validate = .ok ()) (hq : q.validate = .ok ())
    (hpc : (plan p).controllers < 2 ^ 32) (hqc : (plan q).controllers < 2 ^ 32)
    (hps : (plan p).stride < 2 ^ 32) (hqs : (plan q).stride < 2 ^ 32) :
    ((plan p).identity = (plan q).identity ↔ plan p = plan q) ∧
      ((Hash.Blake2b.digest (plan p).identity = Hash.Blake2b.digest (plan q).identity →
          (plan p).identity = (plan q).identity) →
        ((plan p).fingerprint = (plan q).fingerprint ↔ plan p = plan q)) := by
  have hvp := (Port.validate_ok_iff p).1 hp
  have hvq := (Port.validate_ok_iff q).1 hq
  have hinj := plan_eq_of_identity hvp hvq hpc hqc hps hqs
  refine ⟨⟨hinj, fun h => by rw [h]⟩, fun hdigest =>
    ⟨fun h => hinj (hdigest h), fun h => by rw [h]⟩⟩

/-- The pads under other names, with another range, symbol and slot. -/
def renamedPads : Port where
  name := [113]
  humanName := [112]
  symbol := []
  controllers := [⟨[1], [2], [.button [65] 65, .button [] 66]⟩,
    ⟨[], [], [.axis [89] .axis (-7) 7, .button [99] 67]⟩]
  slots := [3, 1]

theorem renamedPads_same_layout : (plan twoPads).identity = (plan renamedPads).identity ∧
    plan twoPads = plan renamedPads ∧
    ((plan twoPads).fingerprint = (plan renamedPads).fingerprint ↔
      plan twoPads = plan renamedPads) := by
  have hid : (plan twoPads).identity = (plan renamedPads).identity := by decide
  have h := @identity_eq_iff twoPads renamedPads rfl rfl (by decide) (by decide)
      (by decide) (by decide)
  exact ⟨hid, h.1.1 hid, h.2 (fun _ => hid)⟩

end Layout
end PortCodec
