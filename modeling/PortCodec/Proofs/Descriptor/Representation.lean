import PortCodec.Proofs.Descriptor.Acceptance

/-! Syntaxes differ in how they deliver numbers and lists. A descriptor does not depend on that:
trees that say the same are read as the same port, or else are refused at the same place. -/

namespace PortCodec

/-- The value of a number. What is no number has none. -/
def Document.Number.value? : Document.Number → Option ℚ
  | .int n => some n.toInt
  | .signed n => some n.toInt
  | .unsigned n => some n.toNat
  | .float (.finite negative m q) => some ((if negative then -1 else 1) * m * 2 ^ q)
  | .float _ => none

namespace Descriptor

open Document (Value Number)

/-- Trees that say the same. Numbers may have any form that has their value, lists either of their
two forms, and objects any order of their fields. -/
inductive Same : Value → Value → Prop
  | refl (v : Value) : Same v v
  | number {a b : Number} {x : ℚ} (ha : a.value? = some x) (hb : b.value? = some x) :
      Same (.number a) (.number b)
  | list {v w : Value} {vs ws : List Value} (hv : Lists v vs) (hw : Lists w ws)
      (items : List.Forall₂ Same vs ws) : Same v w
  | object {fs gs : Fields}
      (keys : ∀ name, (Document.lookup fs name).isSome = (Document.lookup gs name).isSome)
      (values : ∀ name v w, Document.lookup fs name = some v →
      Document.lookup gs name = some w → Same v w) :
      Same (.object fs) (.object gs)

/-- The values that trees may give in more than one form. -/
inductive Varying : Value → Prop
  | number (a : Number) : Varying (.number a)
  | list (vs : List Value) : Varying (.list vs)
  | records (rows : List Fields) : Varying (.records rows)
  | object (fs : Fields) : Varying (.object fs)

theorem Lists.varying {v : Value} {vs : List Value} (h : Lists v vs) : Varying v := by
  cases h <;> constructor

/-- All other values say the same only if they are. -/
theorem Same.eq_or_varying {v w : Value} (h : Same v w) : v = w ∨ Varying v ∧ Varying w := by
  cases h with
  | refl => exact .inl rfl
  | number => exact .inr ⟨.number _, .number _⟩
  | list hv hw => exact .inr ⟨hv.varying, hw.varying⟩
  | object => exact .inr ⟨.object _, .object _⟩

structure SameFields (fs gs : Fields) : Prop where
  keys : ∀ name, (Document.lookup fs name).isSome = (Document.lookup gs name).isSome
  values : ∀ name v w, Document.lookup fs name = some v →
    Document.lookup gs name = some w → Same v w

/-- Two readings come to related results, or fail at the same place. -/
inductive Agree {α β : Type} (R : α → β → Prop) : Result α → Result β → Prop
  | ok {a : α} {b : β} (h : R a b) : Agree R (.ok a) (.ok b)
  | error {e e' : SchemaError} (h : e.path = e'.path) : Agree R (.error e) (.error e')

section Agreement

variable {α β γ δ : Type} {R : α → β → Prop} {S : γ → δ → Prop} {path : String}

theorem Agree.refl (x : Result α) : Agree Eq x x := by
  cases x with
  | ok a => exact .ok rfl
  | error e => exact .error rfl

theorem Agree.bind {x : Result α} {y : Result β} {f : α → Result γ} {g : β → Result δ}
    (h : Agree R x y)
    (hfg : ∀ a b, R a b → Agree S (f a) (g b)) : Agree S (x >>= f) (y >>= g) := by
  cases h with
  | ok h => exact hfg _ _ h
  | error h => exact .error h

/-- The rest may be the same for both, if the results are. -/
theorem Agree.then {x y : Result α} {f g : α → Result γ} (h : Agree Eq x y)
    (hfg : ∀ a, Agree Eq (f a) (g a)) : Agree Eq (x >>= f) (y >>= g) := by
  refine h.bind ?_
  rintro a _ rfl
  exact hfg a

/-- Readings that can fail at one place only agree if they have the same results. -/
theorem agree_of_iff {x y : Result α} (hx : ∀ e, x = .error e → e.path = path)
    (hy : ∀ e, y = .error e → e.path = path) (h : ∀ a, x = .ok a ↔ y = .ok a) : Agree Eq x y := by
  cases x with
  | ok a =>
    rw [(h a).1 rfl]
    exact .ok rfl
  | error e =>
    cases y with
    | ok a => cases (h a).2 rfl
    | error e' => exact .error ((hx e rfl).trans (hy e' rfl).symm)

end Agreement

section Numbers

variable {path : String} {v w : Value} {n : ℤ} {bits : ℕ}

theorem denotes_iff : Denotes v n ↔ ∃ a : Number, v = .number a ∧ a.value? = some (n : ℚ) := by
  constructor
  · rintro (k | k | k | h)
    · exact ⟨_, rfl, rfl⟩
    · exact ⟨_, rfl, rfl⟩
    · exact ⟨_, rfl, by simp [Number.value?]⟩
    · exact ⟨_, rfl, by rw [h]; rfl⟩
  · rintro ⟨a, rfl, ha⟩
    cases a with
    | int k =>
      have hk : k.toInt = n := by simpa [Number.value?] using ha
      rw [← hk]
      exact .int k
    | signed k =>
      have hk : k.toInt = n := by simpa [Number.value?] using ha
      rw [← hk]
      exact .signed k
    | unsigned k =>
      have hk : (k.toNat : ℤ) = n := by
        rw [← @Int.cast_inj ℚ]
        simpa [Number.value?] using ha
      rw [← hk]
      exact .unsigned k
    | float x =>
      cases x with
      | finite negative m q => exact .float (Option.some.inj ha).symm
      | nan => cases ha
      | infinite negative => cases ha

theorem Same.denotes (h : Same v w) : Denotes v n ↔ Denotes w n := by
  cases h with
  | refl => exact Iff.rfl
  | number ha hb =>
    simp only [denotes_iff, Value.number.injEq, exists_eq_left', ha, hb]
  | list hv hw =>
    refine iff_of_false ?_ ?_ <;> rw [denotes_iff]
    · rintro ⟨a, rfl, -⟩
      cases hv
    · rintro ⟨a, rfl, -⟩
      cases hw
  | object => exact iff_of_false nofun nofun

theorem wide_error {e : SchemaError} (h : wide path v = .error e) : e.path = path := by
  unfold wide at h
  split at h
  · cases h
  · cases h
  · split_ifs at h
    cases h
    rfl
  · split at h
    · cases h
      rfl
    · split_ifs at h
      cases h
      rfl
  · cases h
    rfl

theorem integer_error {e : SchemaError} (h : integer bits path v = .error e) : e.path = path := by
  unfold integer at h
  cases hw : wide path v with
  | error e' =>
    rw [hw] at h
    cases h
    exact wide_error hw
  | ok n =>
    rw [hw] at h
    change (if _ then _ else _) = _ at h
    split_ifs at h
    · cases h
    · cases h
      rfl

theorem integer_agree (h : Same v w) (hb : bits ≤ 64) :
    Agree Eq (integer bits path v) (integer bits path w) :=
  agree_of_iff (fun _ => integer_error) (fun _ => integer_error) fun n => by
    rw [integer_eq_ok hb, integer_eq_ok hb, h.denotes]

theorem slot_agree (path : String) (h : Same v w) : Agree Eq (slot path v) (slot path w) :=
  (integer_agree h (by decide)).then fun _ => .refl _

theorem symbol_agree (h : Same v w) : Agree Eq (symbol path v) (symbol path w) := by
  obtain rfl | ⟨hv, hw⟩ := h.eq_or_varying
  · exact .refl _
  · rw [symbol_of_not_text (by rintro s rfl; cases hv),
      symbol_of_not_text (by rintro s rfl; cases hw)]
    exact (integer_agree h (by decide)).then fun _ => .refl _

end Numbers

section Fields

variable {path name : String} {fs gs : Fields} {v w : Value}

/-- Each key is in neither object, or has values that say the same. -/
theorem SameFields.cases (h : SameFields fs gs) (name : Bytes) :
    Document.lookup fs name = none ∧ Document.lookup gs name = none ∨
      ∃ v w, Document.lookup fs name = some v ∧ Document.lookup gs name = some w ∧ Same v w := by
  have hkeys := h.keys name
  cases hv : Document.lookup fs name with
  | none =>
    rw [hv] at hkeys
    exact .inl ⟨rfl, Option.isNone_iff_eq_none.1 (by simpa using hkeys.symm)⟩
  | some v =>
    rw [hv] at hkeys
    obtain ⟨w, hw⟩ := Option.isSome_iff_exists.1 hkeys.symm
    exact .inr ⟨v, w, rfl, hw, h.values name v w hv hw⟩

theorem lookup_cons (name key : Bytes) (v : Value) :
    Document.lookup ((name, v) :: fs) key = if name = key then some v
      else Document.lookup fs key := by
  by_cases h : name = key <;> simp [Document.lookup, h]

/-- Objects whose fields correspond in order say the same. -/
theorem SameFields.of_forall₂ (h : List.Forall₂ (fun f g => f.1 = g.1 ∧ Same f.2 g.2) fs gs) :
    SameFields fs gs := by
  induction h with
  | nil => exact ⟨fun _ => rfl, nofun⟩
  | @cons f g fs gs hfg _ ih =>
    obtain ⟨name, v⟩ := f
    obtain ⟨_, w⟩ := g
    obtain ⟨rfl, hvw⟩ := hfg
    constructor
    · intro key
      rw [lookup_cons, lookup_cons]
      split_ifs
      · rfl
      · exact ih.keys key
    · intro key v' w'
      rw [lookup_cons, lookup_cons]
      split_ifs
      · rintro ⟨⟩ ⟨⟩
        exact hvw
      · exact ih.values key v' w'

theorem object_agree (h : Same v w) : Agree SameFields (object path v) (object path w) := by
  cases h with
  | refl v =>
    cases v with
    | object fs =>
      refine .ok ⟨fun _ => rfl, fun name v w hv hw => ?_⟩
      rw [Option.some.inj (hv.symm.trans hw)]
      exact .refl w
    | _ => exact .error rfl
  | number => exact .error rfl
  | list hv hw =>
    cases hv <;> cases hw <;> exact .error rfl
  | object keys values => exact .ok ⟨keys, values⟩

theorem text?_agree (h : SameFields fs gs) :
    Agree Eq (text? path fs name) (text? path gs name) := by
  unfold text?
  rcases h.cases name with ⟨hv, hw⟩ | ⟨v, w, hv, hw, hvw⟩ <;> rw [hv, hw]
  · exact .refl _
  · obtain rfl | ⟨hv, hw⟩ := hvw.eq_or_varying
    · exact .refl _
    · cases hv <;> cases hw <;> exact .error rfl

theorem text_agree (h : SameFields fs gs) : Agree Eq (text path fs name) (text path gs name) :=
  (text?_agree h).then fun _ => .refl _

theorem flag_agree (h : SameFields fs gs) : Agree Eq (flag path fs name) (flag path gs name) := by
  unfold flag
  rcases h.cases name with ⟨hv, hw⟩ | ⟨v, w, hv, hw, hvw⟩ <;> rw [hv, hw]
  · exact .refl _
  · obtain rfl | ⟨hv, hw⟩ := hvw.eq_or_varying
    · exact .refl _
    · cases hv <;> cases hw <;> exact .error rfl

theorem items_agree (h : SameFields fs gs) :
    Agree (List.Forall₂ Same) (items path fs name) (items path gs name) := by
  unfold items
  rcases h.cases name with ⟨hv, hw⟩ | ⟨v, w, hv, hw, hvw⟩ <;> rw [hv, hw]
  · exact .error rfl
  · cases hvw with
    | refl =>
      dsimp only
      cases v.items? with
      | none => exact .error rfl
      | some vs => exact .ok (List.forall₂_same.2 fun v _ => .refl v)
    | number => exact .error rfl
    | list hv hw items =>
      dsimp only
      rw [items?_eq_some.2 hv, items?_eq_some.2 hw]
      exact .ok items
    | object => exact .error rfl

theorem lookup_isSome_iff {name : Bytes} :
    (Document.lookup fs name).isSome = true ↔ ∃ field ∈ fs, field.1 = name := by
  simp [Document.lookup]

theorem SameFields.onlyKeys (h : SameFields fs gs) {known : List String} :
    OnlyKeys known fs ↔ OnlyKeys known gs := by
  have hmem (name : Bytes) : (∃ field ∈ fs, field.1 = name) ↔ ∃ field ∈ gs, field.1 = name := by
    rw [← lookup_isSome_iff, ← lookup_isSome_iff, h.keys]
  constructor
  · intro hfs field hfield
    obtain ⟨field', hfield', hname⟩ := (hmem field.1).2 ⟨field, hfield, rfl⟩
    exact hname ▸ hfs field' hfield'
  · intro hgs field hfield
    obtain ⟨field', hfield', hname⟩ := (hmem field.1).1 ⟨field, hfield, rfl⟩
    exact hname ▸ hgs field' hfield'

theorem onlyKnown_agree (h : SameFields fs gs) (known : List String) :
    Agree Eq (onlyKnown path known fs) (onlyKnown path known gs) := by
  have herror (fields : Fields) (e : SchemaError) (he : onlyKnown path known fields = .error e) :
      e.path = path := by
    unfold onlyKnown at he
    split at he <;> cases he
    rfl
  exact agree_of_iff (herror fs) (herror gs) fun _ => by rw [onlyKnown_eq_ok,
    onlyKnown_eq_ok, h.onlyKeys]

end Fields

section Controls

variable {path : String} {fs gs : Fields} {v w : Value} {k : Kind}

theorem kind_agree (h : SameFields fs gs) : Agree Eq (kind path fs) (kind path gs) :=
  (text_agree h).then fun _ => .refl _

theorem controlName_agree (h : SameFields fs gs) :
    Agree Eq (controlName path fs k) (controlName path gs k) := by
  unfold controlName
  split_ifs
  · exact (text?_agree h).then fun _ => .refl _
  · exact text_agree h

theorem controlSymbol_agree (h : SameFields fs gs) (name : Bytes) :
    Agree Eq (controlSymbol path fs name) (controlSymbol path gs name) := by
  unfold controlSymbol
  rcases h.cases "symbol" with ⟨hv, hw⟩ | ⟨v, w, hv, hw, hvw⟩ <;> rw [hv, hw]
  · exact .refl _
  · exact symbol_agree hvw

theorem controlMacro_agree (h : SameFields fs gs) (n : ℤ) :
    Agree Eq (controlMacro path fs n) (controlMacro path gs n) :=
  (text?_agree h).then fun _ => .refl _

theorem controlMovie_agree (h : SameFields fs gs) (n : ℤ) :
    Agree Eq (controlMovie path fs n) (controlMovie path gs n) :=
  (text?_agree h).then fun _ => .refl _

theorem limit_agree (h : SameFields fs gs) (key : String) (default : ℤ) :
    Agree Eq (limit path fs key default) (limit path gs key default) := by
  unfold limit
  rcases h.cases key with ⟨hv, hw⟩ | ⟨v, w, hv, hw, hvw⟩ <;> rw [hv, hw]
  · exact .refl _
  · exact integer_agree hvw (by decide)

theorem range_of_not_complete {shadow : Bool} (h : ¬Complete shadow fs) : range path fs shadow =
    fail (fieldPath path (if (Document.lookup fs "min").isSome then "max" else "min"))
      .missing := by
  rw [range]
  refine (if_pos ?_).trans rfl
  rw [Complete, not_or, not_and_or] at h
  simpa using h

theorem range_agree (h : SameFields fs gs) (shadow : Bool) :
    Agree Eq (range path fs shadow) (range path gs shadow) := by
  have hcomplete : Complete shadow fs ↔ Complete shadow gs := by
    rw [Complete, Complete, h.keys, h.keys]
  by_cases hc : Complete shadow fs
  · rw [range_of_complete hc, range_of_complete (hcomplete.1 hc)]
    exact (limit_agree h _ _).then fun _ => (limit_agree h _ _).then fun _ => .refl _
  · rw [range_of_not_complete hc, range_of_not_complete (mt hcomplete.2 hc), h.keys]
    exact .refl _

/-- Controls that are said in the same way are the same. -/
theorem control_agree (path : String) (h : Same v w) :
    Agree Eq (control path v) (control path w) := by
  refine (object_agree h).bind fun fs gs h => ?_
  refine (kind_agree h).then fun kind => ?_
  refine (controlName_agree h).then fun name => ?_
  refine (flag_agree h).then fun shadow => ?_
  refine (flag_agree h).then fun centers => ?_
  refine (controlSymbol_agree h name).then fun symbol => ?_
  refine (controlMacro_agree h symbol).then fun macroText => ?_
  refine (controlMovie_agree h symbol).then fun movie => ?_
  dsimp only
  split_ifs
  · exact (range_agree h shadow).then fun _ => (onlyKnown_agree h _).then fun _ => .refl _
  · exact (onlyKnown_agree h _).then fun _ => .refl _

end Controls

section Ports

variable {α : Type} {path : String} {v w : Value} {fs gs : Fields}

theorem each_agree {read : String → Value → Result α}
    (hread : ∀ path v w, Same v w → Agree Eq (read path v) (read path w)) {vs ws : List Value}
    (h : List.Forall₂ Same vs ws) (i : ℕ) :
    Agree Eq (each path read i vs) (each path read i ws) := by
  induction h generalizing i with
  | nil => exact .refl _
  | cons hvw _ ih => exact (hread _ _ _ hvw).then fun _ => (ih (i + 1)).then fun _ => .refl _

theorem controller_agree (path : String) (h : Same v w) :
    Agree Eq (controller path v) (controller path w) := by
  refine (object_agree h).bind fun fs gs h => ?_
  refine (text_agree h).then fun family => ?_
  refine (text_agree h).then fun model => ?_
  refine (items_agree h).bind fun vs ws hitems => ?_
  refine (each_agree (fun path v w => control_agree path) hitems 0).then fun controls => ?_
  exact (onlyKnown_agree h _).then fun _ => .refl _

theorem port_agree (h : SameFields fs gs) : Agree Eq (port fs) (port gs) := by
  refine (text_agree h).then fun name => ?_
  refine (text?_agree h).then fun humanName => ?_
  refine (text?_agree h).then fun symbol => ?_
  refine (items_agree h).bind fun vs ws hslots => ?_
  refine (each_agree (fun path v w => slot_agree path) hslots 0).then fun slots => ?_
  refine (items_agree h).bind fun vs ws hcontrollers => ?_
  refine (each_agree (fun path v w => controller_agree path) hcontrollers 0).then
    fun controllers => ?_
  exact (onlyKnown_agree h _).then fun _ => .refl _

theorem ofValue_agree (h : Same v w) : Agree Eq (ofValue v) (ofValue w) := by
  cases h with
  | refl => exact .refl _
  | number => exact .error rfl
  | list hv hw => cases hv <;> cases hw <;> exact .error rfl
  | object keys values => exact port_agree ⟨keys, values⟩

end Ports

/-- Trees that say the same describe the same port, or are both refused, and at the same place. -/
theorem ofValue_same {v w : Value} (h : Same v w) : (∃ p, ofValue v = .ok p ∧ ofValue w = .ok p) ∨
    ∃ e e' : SchemaError, ofValue v = .error e ∧ ofValue w = .error e' ∧ e.path = e'.path := by
  have hagree := ofValue_agree h
  generalize ofValue v = x, ofValue w = y at hagree
  cases hagree with
  | ok h => exact .inl ⟨_, rfl, h ▸ rfl⟩
  | error h => exact .inr ⟨_, _, rfl, rfl, h⟩

/-- A port with one axis, its numbers given in some form and its lists in either. -/
def stickTree (slot low high : Number) (rows : List Fields → Value) : Value :=
  .object [("name", .string "stick"), ("legal", .list [.number slot]), ("controllers", rows [
    [("class", .string "joystick"), ("type", .string "joystick"), ("buttons", rows [
      [("type", .string "axis"), ("name", .string "x"), ("min", .number low),
        ("max", .number high)]])]])]

theorem stickTree_same {slot slot' low low' high high' : Number}
    (hslot : Same (.number slot) (.number slot'))
    (hlow : Same (.number low) (.number low')) (hhigh : Same (.number high) (.number high')) :
    Same (stickTree slot low high .records)
      (stickTree slot' low' high' fun rows => .list (rows.map .object)) := by
  have hobject {fs gs : Fields} (h : List.Forall₂ (fun f g => f.1 = g.1 ∧ Same f.2 g.2) fs gs) :
      Same (.object fs) (.object gs) :=
    .object (SameFields.of_forall₂ h).keys (SameFields.of_forall₂ h).values
  have hrow {fs gs : Fields} (h : Same (.object fs) (.object gs)) :
      Same (.records [fs]) (.list [.object gs]) := .list (.records [fs]) (.list _) (.cons h .nil)
  refine hobject (.cons ⟨rfl, .refl _⟩ (.cons ⟨rfl, .list (.list _) (.list _) (.cons hslot .nil)⟩
    (.cons ⟨rfl, hrow (hobject ?_)⟩ .nil)))
  refine .cons ⟨rfl, .refl _⟩ (.cons ⟨rfl, .refl _⟩ (.cons ⟨rfl, hrow (hobject ?_)⟩ .nil))
  exact .cons ⟨rfl, .refl _⟩ (.cons ⟨rfl, .refl _⟩ (.cons ⟨rfl, hlow⟩ (.cons ⟨rfl, hhigh⟩ .nil)))

/-- Integers and floating-point numbers, minus zero among them, give the same port, or are both out
of range. -/
theorem stickTree_read_same :
    let accepted := stickTree (.int 0) (.signed (-128)) (.unsigned 127) .records
    let accepted' := stickTree (.float (.finite true 0 0)) (.float (.finite true 1 7))
      (.float (.finite false 127 0)) fun rows => .list (rows.map .object)
    let refused := stickTree (.unsigned 0x8000000000000000) (.signed 0) (.signed 1) .records
    let refused' := stickTree (.float (.finite false 1 63)) (.unsigned 0) (.unsigned 1)
      fun rows => .list (rows.map .object)
    (∃ p, ofValue accepted = .ok p ∧ ofValue accepted' = .ok p) ∧
      ∃ e e' : SchemaError, ofValue refused = .error e ∧ ofValue refused' = .error e' ∧
        e.path = e'.path := by
  intro accepted accepted' refused refused'
  have haccepted : Same accepted accepted' := by
    refine stickTree_same (.number (x := 0) ?_ ?_) (.number (x := -128) ?_ ?_)
      (.number (x := 127) ?_ ?_)
    all_goals decide +kernel
  have hrefused : Same refused refused' := by
    refine stickTree_same (.number (x := 0x8000000000000000) ?_ ?_) (.number (x := 0) ?_ ?_)
      (.number (x := 1) ?_ ?_)
    all_goals decide +kernel
  constructor
  · refine (ofValue_same haccepted).resolve_right ?_
    rintro ⟨e, -, he, -⟩
    have : (ofValue accepted).isOk = true := by decide +kernel
    rw [he] at this
    cases this
  · refine (ofValue_same hrefused).resolve_left ?_
    rintro ⟨p, hp, -⟩
    have : (ofValue refused).isOk = false := by decide +kernel
    rw [hp] at this
    cases this

end Descriptor
end PortCodec
