import PortCodec.Command.Assignment
import PortCodec.Proofs.AxisValue
import PortCodec.Proofs.Outcome

/-! Assignments and the texts that stand for them. A text is cut at its first `=` and what is before
that at its first dot; a number between the two is a place, and anything else is the name of a
control. -/

namespace PortCodec.Decimal

open Line (signedValue)

variable {bits largest m : ℕ} {n : ℤ} {text ds : Bytes} {b : UInt8}

/-- Decimal texts: at most one sign, then at least one digit, and nothing else. -/
structure Spells (text sign digits : Bytes) : Prop where
  text_eq : text = sign ++ digits
  oneSign : sign = [] ∨ sign = [45] ∨ sign = [43]
  ne_nil : digits ≠ []
  digit : ∀ b ∈ digits, 48 ≤ b ∧ b ≤ 57

def IsNumber (bits : ℕ) (text : Bytes) (n : ℤ) : Prop :=
  (∃ sign digits, Spells text sign digits ∧ n = signedValue sign digits) ∧ -2 ^ (bits - 1) ≤ n ∧
    n < 2 ^ (bits - 1)

theorem le_addDigits (m : ℕ) (ds : Bytes) : m ≤ addDigits m ds := by
  induction ds generalizing m with
  | nil => exact le_rfl
  | cons b ds ih => exact le_trans (by omega) (ih (m * 10 + (b.toNat - 48)))

/-- Once a number is too large, no more digits make it smaller. -/
theorem boundedDigits_eq_ok_iff {value : ℕ} (hv : value ≤ largest) :
    boundedDigits largest value ds = .ok m ↔
    (∀ b ∈ ds, 48 ≤ b ∧ b ≤ 57) ∧ m = addDigits value ds ∧ m ≤ largest := by
  induction ds generalizing value with
  | nil =>
    rw [boundedDigits, Except.ok.injEq]
    simp only [List.not_mem_nil, false_implies, implies_true, true_and]
    constructor
    · rintro rfl
      exact ⟨rfl, hv⟩
    · rintro ⟨rfl, -⟩
      rfl
  | cons b ds ih =>
    rw [boundedDigits]
    by_cases hb : 48 ≤ b ∧ b ≤ 57
    · rw [if_pos (by simp [hb])]
      dsimp only
      have hadd : addDigits value (b :: ds) = addDigits (value * 10 + (b.toNat - 48)) ds := rfl
      split_ifs with hlarge
      · have := le_addDigits (value * 10 + (b.toNat - 48)) ds
        simp only [false_iff, not_and, hadd]
        omega
      · rw [ih (by omega), hadd, List.forall_mem_cons, and_iff_right hb]
    · rw [if_neg (by simpa using hb)]
      simp [hb]

theorem boundedNatural_eq_ok_iff : boundedNatural bits ds = .ok m ↔
    ds ≠ [] ∧ (∀ b ∈ ds, 48 ≤ b ∧ b ≤ 57) ∧ m = runValue ds ∧ m < 2 ^ bits := by
  have hpos : 0 < 2 ^ bits := by positivity
  cases ds with
  | nil => simp [boundedNatural]
  | cons b ds =>
    change boundedDigits (Nat.pow 2 bits - 1) 0 (b :: ds) = .ok m ↔ _
    rw [boundedDigits_eq_ok_iff (Nat.zero_le _), addDigits_eq_runValue, Nat.pow_eq]
    have hle : m ≤ 2 ^ bits - 1 ↔ m < 2 ^ bits := by omega
    rw [hle]
    exact (and_iff_right (List.cons_ne_nil b ds)).symm

theorem Spells.takeSign_eq {sign : Bytes} (h : Spells text sign ds) :
    takeSign text = (decide (sign = [45]), ds) := by
  rw [h.text_eq]
  refine takeSign_append h.oneSign fun _ b hb => ?_
  have hdigit := h.digit b (List.mem_of_mem_head? hb)
  constructor <;> rintro rfl <;> exact absurd hdigit.1 (by decide)

/-- The limits of a signed number also keep its digits within the unsigned limit that is looked at
first. -/
theorem boundedInteger_eq_ok_iff (hbits : 0 < bits) :
    boundedInteger bits text = .ok n ↔ IsNumber bits text n := by
  have hdouble : 2 ^ bits = 2 * 2 ^ (bits - 1) := by
    rw [← Nat.pow_succ', Nat.succ_eq_add_one, Nat.sub_add_cancel hbits]
  have hpos : 0 < 2 ^ (bits - 1) := by positivity
  have hcast : ((2 ^ (bits - 1) : ℕ) : ℤ) = 2 ^ (bits - 1) := by push_cast; rfl
  unfold IsNumber
  rw [← hcast]
  constructor
  · intro h
    obtain ⟨sign, digits, rfl, hsign, hhead⟩ := Line.exists_sign text
    rw [boundedInteger, takeSign_append hsign hhead] at h
    dsimp only at h
    split at h
    · cases h
    next m hm =>
      obtain ⟨hne, hdigit, rfl, -⟩ := boundedNatural_eq_ok_iff.1 hm
      have hspells : Spells (sign ++ digits) sign digits := ⟨rfl, hsign, hne, hdigit⟩
      simp only [decide_eq_true_eq, Nat.pow_eq] at h
      split_ifs at h with hminus hlarge hlarge
      · cases h
        exact ⟨⟨sign, digits, hspells, by rw [signedValue, if_pos hminus]⟩, by omega, by omega⟩
      · cases h
        exact ⟨⟨sign, digits, hspells, by rw [signedValue, if_neg hminus]⟩, by omega, by omega⟩
  · rintro ⟨⟨sign, digits, hs, rfl⟩, hlow, hhigh⟩
    have hsmall : runValue digits < 2 ^ bits := by
      unfold signedValue at hlow hhigh
      split_ifs at hlow hhigh <;> omega
    rw [boundedInteger, hs.takeSign_eq]
    dsimp only
    rw [boundedNatural_eq_ok_iff.2 ⟨hs.ne_nil, hs.digit, rfl, hsmall⟩]
    unfold signedValue at hlow hhigh ⊢
    simp only [decide_eq_true_eq, Nat.pow_eq]
    split_ifs at hlow hhigh ⊢ <;> first | rfl | omega

theorem readInteger_eq_ok_iff : readInteger text = .ok n ↔ IsNumber 64 text n := by
  rw [← boundedInteger_eq_ok_iff (by decide), readInteger]
  cases boundedInteger 64 text <;> simp [Except.mapError]

theorem readShort_eq_ok_iff {v : Int16} : readShort text = .ok v ↔ IsNumber 16 text v.toInt := by
  rw [← boundedInteger_eq_ok_iff (by decide), readShort]
  cases h : boundedInteger 16 text with
  | error fault => simp
  | ok n =>
    obtain ⟨-, hlow, hhigh⟩ := (boundedInteger_eq_ok_iff (by decide)).1 h
    simp only [Except.ok.injEq]
    constructor
    · rintro rfl
      exact (Int16.toInt_ofInt_of_le hlow hhigh).symm
    · rintro rfl
      exact Int16.ofInt_toInt v

/-- Numerals of numbers that are small enough. -/
theorem isNumber_numeral (hlow : -2 ^ (bits - 1) ≤ n) (hhigh : n < 2 ^ (bits - 1)) :
    IsNumber bits (numeral n) n := by
  refine ⟨⟨if n < 0 then [45] else [], natural n.natAbs, ⟨?_, ?_, natural_ne_nil _, ?_⟩,
    ?_⟩, hlow, hhigh⟩
  · rw [← signed_eq_numeral, signed_eq]
  · split_ifs <;> simp
  · intro b hb
    simpa [isDigitByte] using isDigitByte_of_mem_natural _ b hb
  · rw [signedValue, ← addDigits_eq_runValue, addDigits_natural]
    by_cases hn : n < 0
    · rw [if_pos hn, if_pos rfl]
      omega
    · rw [if_neg hn, if_neg (by simp)]
      omega

/-- Numbers have only digits and signs in them. -/
theorem IsNumber.not_mem (h : IsNumber bits text n)
    (hb : ¬ (48 ≤ b ∧ b ≤ 57) ∧ b ≠ 45 ∧ b ≠ 43) : b ∉ text := by
  obtain ⟨⟨sign, digits, hs, -⟩, -⟩ := h
  obtain ⟨hdigit, hminus, hplus⟩ := hb
  rw [hs.text_eq, List.mem_append, not_or]
  refine ⟨?_, fun h => hdigit (hs.digit b h)⟩
  rcases hs.oneSign with rfl | rfl | rfl
  · exact List.not_mem_nil
  · simpa using hminus
  · simpa using hplus

end PortCodec.Decimal

namespace PortCodec.Assignment

open Decimal

variable {b : UInt8} {s front back name : Bytes} {p : Port} {port : Option Port} {controller : ℤ}
  {a : Assignment}

theorem cut_eq_some_iff : cut b s = some (front, back) ↔ s = front ++ b :: back ∧ b ∉ front := by
  induction s generalizing front with
  | nil => simp [cut]
  | cons x rest ih =>
    rw [cut]
    split_ifs with hx
    · subst hx
      constructor
      · rintro ⟨⟩
        exact ⟨rfl, List.not_mem_nil⟩
      · rintro ⟨h, hfront⟩
        cases front with
        | nil => cases h; rfl
        | cons y front =>
          obtain ⟨rfl, -⟩ := List.cons.inj h
          exact absurd (List.mem_cons_self ..) hfront
    · rw [Option.map_eq_some_iff]
      constructor
      · rintro ⟨⟨u, v⟩, huv, h⟩
        cases h
        obtain ⟨rfl, hu⟩ := ih.1 huv
        exact ⟨rfl, List.not_mem_cons_of_ne_of_not_mem (Ne.symm hx) hu⟩
      · rintro ⟨h, hfront⟩
        cases front with
        | nil => exact absurd (List.cons.inj h).1 hx
        | cons y front =>
          obtain ⟨rfl, rfl⟩ := List.cons.inj h
          exact ⟨(front, back), ih.2 ⟨rfl, List.not_mem_of_not_mem_cons hfront⟩, rfl⟩

/-- The first control of a controller that has a name. Empty places have none. -/
structure FirstNamed (d : Controller) (name : Bytes) (j : ℕ) : Prop where
  named : ∃ x, d.controls[j]? = some x ∧ x.kind ≠ .null ∧ x.name = name
  first : ∀ i < j, ∀ y, d.controls[i]? = some y → y.kind ≠ .null → y.name ≠ name

theorem controlNamed?_eq_some_iff {j : ℕ} : controlNamed? p controller name = some j ↔
    0 ≤ controller ∧ ∃ d, p.controllers[controller.toNat]? = some d ∧ FirstNamed d name j := by
  unfold controlNamed?
  split_ifs with h0
  · simp [h0]
  · rw [and_iff_right (not_lt.1 h0)]
    cases hd : p.controllers[controller.toNat]? with
    | none => simp
    | some d =>
      change d.controls.findIdx? _ = some j ↔ _
      rw [List.findIdx?_eq_some_iff_getElem]
      constructor
      · rintro ⟨hj, hown, hbefore⟩
        have hx : d.controls[j].kind ≠ .null ∧ d.controls[j].name = name := by simpa using hown
        refine ⟨d, rfl, ⟨d.controls[j], List.getElem?_eq_getElem hj, hx.1, hx.2⟩,
          fun i hi y hy hkind hname => ?_⟩
        obtain ⟨_, rfl⟩ := List.getElem?_eq_some_iff.1 hy
        exact hbefore i hi (by simp [hkind, hname])
      · rintro ⟨_, ⟨⟩, ⟨x, hx, hkind, hname⟩, hfirst⟩
        obtain ⟨hj, rfl⟩ := List.getElem?_eq_some_iff.1 hx
        refine ⟨hj, by simp [hkind, hname], fun i hi h => ?_⟩
        have hy : d.controls[i].kind ≠ .null ∧ d.controls[i].name = name := by simpa using h
        exact hfirst i hi _ (List.getElem?_eq_getElem (hi.trans hj)) hy.1 hy.2

/-- What a text between the dot and the `=` stands for: a number for itself, and any other text for
the first control of its controller that has it as a name. -/
def Means (port : Option Port) (controller : ℤ) (text : Bytes) (control : ℤ) : Prop :=
  IsNumber 64 text control ∨ (∀ n, ¬ IsNumber 64 text n) ∧ ∃ p d j, port = some p ∧ 0 ≤ controller ∧
    p.controllers[controller.toNat]? = some d ∧ FirstNamed d text j ∧ control = j

theorem place?_eq_some_iff {n : ℤ} : place? port controller name = some n ↔
    Means port controller name n := by
  simp only [Means, ← readInteger_eq_ok_iff]
  unfold place?
  cases hname : readInteger name with
  | ok m => simp
  | error fault =>
    cases port with
    | none => simp
    | some p =>
      rw [or_iff_right (by simp), and_iff_right (by simp)]
      change (controlNamed? p controller name).bind (fun j => some (j : ℤ)) = some n ↔ _
      constructor
      · intro h
        obtain ⟨j, hj, h⟩ := Option.bind_eq_some_iff.1 h
        cases h
        obtain ⟨h0, d, hd, hfirst⟩ := controlNamed?_eq_some_iff.1 hj
        exact ⟨p, d, j, rfl, h0, hd, hfirst, rfl⟩
      · rintro ⟨_, d, j, ⟨⟩, h0, hd, hfirst, rfl⟩
        have hj := controlNamed?_eq_some_iff.2 ⟨h0, d, hd, hfirst⟩
        exact Option.bind_eq_some_iff.2 ⟨j, hj, rfl⟩

theorem parse_eq_ok_iff_cut : parse s port = .ok a ↔
    ∃ left right text name, cut 61 s = some (left, right) ∧ cut 46 left = some (text, name) ∧
      readInteger text = .ok a.controller ∧ readShort right = .ok a.value ∧
      place? port a.controller name = some a.control := by
  unfold parse
  cases hs : cut 61 s with
  | none => simp [throw, throwThe, MonadExceptOf.throw]
  | some x =>
    obtain ⟨left, right⟩ := x
    cases hleft : cut 46 left with
    | none => simp [hleft, throw, throwThe, MonadExceptOf.throw]
    | some x =>
      obtain ⟨text, name⟩ := x
      simp only [hleft, bind_eq_ok, mapError_eq_ok]
      constructor
      · rintro ⟨c, hc, h⟩
        cases hplace : place? port c name with
        | none =>
          rw [hplace] at h
          cases h
        | some n =>
          rw [hplace] at h
          obtain ⟨v, hv, h⟩ := bind_eq_ok.1 h
          rw [mapError_eq_ok] at hv
          cases h
          exact ⟨left, right, text, name, rfl, hleft, hc, hv, hplace⟩
      · rintro ⟨_, _, _, _, ⟨⟩, hleft', hc, hv, hplace⟩
        cases hleft.symm.trans hleft'
        refine ⟨a.controller, hc, ?_⟩
        rw [hplace]
        exact bind_eq_ok.2 ⟨a.value, mapError_eq_ok.2 hv, rfl⟩

/-- The texts of assignments: a number, a dot, what stands for a control, `=` and a number. -/
theorem parse_eq_ok_iff :
    parse s port = .ok a ↔ ∃ text name right, s = text ++ 46 :: name ++ 61 :: right ∧
    61 ∉ text ++ 46 :: name ∧ 46 ∉ text ∧ IsNumber 64 text a.controller ∧
    IsNumber 16 right a.value.toInt ∧
    Means port a.controller name a.control := by
  simp only [parse_eq_ok_iff_cut, cut_eq_some_iff, readInteger_eq_ok_iff, readShort_eq_ok_iff,
    place?_eq_some_iff]
  constructor
  · rintro ⟨_, right, text, name, ⟨rfl, h61⟩, ⟨rfl, h46⟩, h⟩
    exact ⟨text, name, right, rfl, h61, h46, h⟩
  · rintro ⟨text, name, right, rfl, h61, h46, h⟩
    exact ⟨_, right, text, name, ⟨rfl, h61⟩, ⟨rfl, h46⟩, h⟩

/-- Two numbers around a text that stands for a control are an assignment, as no number has a dot or
a `=` in it. -/
theorem parse_of_means {text right : Bytes} (h : IsNumber 64 text a.controller) (hname : 61 ∉ name)
    (hmeans : Means port a.controller name a.control) (hright : IsNumber 16 right a.value.toInt) :
    parse (text ++ 46 :: name ++ 61 :: right) port = .ok a := by
  refine parse_eq_ok_iff.2 ⟨text, name, right, rfl, ?_, h.not_mem (by decide), h, hright, hmeans⟩
  simpa using ⟨h.not_mem (by decide), hname⟩

/-- Three numbers in decimal are an assignment whatever the port is. So is a control's name between
two numbers, if it is no number itself, has no `=` in it and no control before has it. All texts
that are read are of one of these kinds, but for signs and zeros before a number. -/
theorem parse_reads_back (port : Option Port) :
    (∀ (c i : Int64) (v : Int16), parse (numeral c.toInt ++ 46 :: numeral i.toInt ++ 61 ::
      numeral v.toInt) port = .ok ⟨c.toInt, i.toInt, v⟩) ∧
    (∀ p d (c j : ℕ) name (v : Int16), port = some p → c < 2 ^ 63 → p.controllers[c]? = some d →
      FirstNamed d name j → 61 ∉ name → (∀ n, ¬ IsNumber 64 name n) →
      parse (numeral c ++ 46 :: name ++ 61 :: numeral v.toInt) port = .ok ⟨c, j, v⟩) ∧
    ∀ s a, parse s port = .ok a ↔ ∃ text name right, s = text ++ 46 :: name ++ 61 :: right ∧
      61 ∉ text ++ 46 :: name ∧ 46 ∉ text ∧ IsNumber 64 text a.controller ∧
      IsNumber 16 right a.value.toInt ∧
      (IsNumber 64 name a.control ∨
        (∀ n, ¬ IsNumber 64 name n) ∧ ∃ p d j, port = some p ∧ 0 ≤ a.controller ∧
        p.controllers[a.controller.toNat]? = some d ∧ FirstNamed d name j ∧ a.control = j) := by
  refine ⟨fun c i v => ?_, ?_, fun s a => parse_eq_ok_iff⟩
  · have hi : IsNumber 64 (numeral i.toInt) i.toInt := isNumber_numeral i.le_toInt i.toInt_lt
    exact parse_of_means (isNumber_numeral c.le_toInt c.toInt_lt) (hi.not_mem (by decide)) (.inl hi)
      (isNumber_numeral v.le_toInt v.toInt_lt)
  · rintro p d c j name v rfl hc hd hfirst hname hnumber
    refine parse_of_means (isNumber_numeral (by omega) (by omega)) hname ?_
      (isNumber_numeral v.le_toInt v.toInt_lt)
    exact .inr ⟨hnumber, p, d, j, rfl, Int.natCast_nonneg c, hd, hfirst, rfl⟩

/-- The second player has an empty place and a button with one name, which has a dot in it, and a
button with none. -/
def dotted : Port where
  name := []
  humanName := []
  symbol := []
  controllers :=
    [⟨[], [], []⟩,
    ⟨[], [], [.axis [120, 46, 121] .null 0 0, .button [120, 46, 121] 65, .button [] 66]⟩]
  slots := [1]

theorem dotted_parse : parse [49, 46, 120, 46, 121, 61, 45, 53] (some dotted) = .ok ⟨1, 1, -5⟩ ∧
    parse [49, 46, 61, 55] (some dotted) = .ok ⟨1, 2, 7⟩ := by
  constructor
  · refine (parse_reads_back (some dotted)).2.1 dotted _ 1 1 [120, 46, 121] (-5) rfl (by decide) rfl
      ?_ (by decide) ?_
    · refine ⟨⟨_, rfl, by decide, rfl⟩, fun i hi y hy hkind => ?_⟩
      obtain rfl : i = 0 := by omega
      cases hy
      exact absurd rfl hkind
    · intro n h
      cases readInteger_eq_ok_iff.2 h
  · refine (parse_reads_back (some dotted)).2.1 dotted _ 1 2 [] 7 rfl (by decide) rfl
      ?_ (by decide) ?_
    · refine ⟨⟨_, rfl, by decide, rfl⟩, fun i hi y hy hkind => ?_⟩
      obtain rfl | rfl : i = 0 ∨ i = 1 := by omega
      · cases hy
        exact absurd rfl hkind
      · cases hy
        decide
    · intro n h
      cases readInteger_eq_ok_iff.2 h

end PortCodec.Assignment
