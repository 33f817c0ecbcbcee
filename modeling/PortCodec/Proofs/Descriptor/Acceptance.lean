import PortCodec.Proofs.Descriptor.Fields
import PortCodec.Proofs.Placement

/-! Reading a port: a control is read field by field, each with what was read before it, and yet the
trees that are read are those of the grammar. -/

namespace PortCodec.Descriptor

open Document (Value)

section Controls

variable {path : String} {fields : Fields} {name : Bytes} {kind : Kind} {v : Value} {n : ℤ}

theorem ofName?_eq_some {t : String} : Kind.ofName? t = some kind ↔ (t, kind) ∈ typeNames := by
  constructor
  · intro h
    unfold Kind.ofName? at h
    split at h <;> cases h <;> simp [typeNames]
  · intro h
    simp only [typeNames, List.mem_cons, Prod.mk.injEq, List.not_mem_nil, or_false] at h
    rcases h with ⟨rfl, rfl⟩ | ⟨rfl, rfl⟩ | ⟨rfl, rfl⟩ | ⟨rfl, rfl⟩ | ⟨rfl, rfl⟩ | ⟨rfl, rfl⟩ |
      ⟨rfl, rfl⟩ | ⟨rfl, rfl⟩ | ⟨rfl, rfl⟩ <;> rfl

theorem kind_eq_ok : Descriptor.kind path fields = .ok kind ↔
    ∃ t, (t, kind) ∈ typeNames ∧
      Document.lookup fields "type" = some (.string (Bytes.ofString t)) := by
  rw [Descriptor.kind, bind_eq_ok]
  simp only [text_eq_ok]
  constructor
  · rintro ⟨bs, hbs, h⟩
    split at h
    next k hk =>
      cases h
      obtain ⟨t, ht, hk⟩ := Option.bind_eq_some_iff.1 hk
      rw [Bytes.toString?_eq_some] at ht
      exact ⟨t, ofName?_eq_some.1 hk, ht ▸ hbs⟩
    · cases h
  · rintro ⟨t, ht, htype⟩
    refine ⟨_, htype, ?_⟩
    have hk : Bytes.toString? (Bytes.ofString t) >>= Kind.ofName? = some kind :=
      Option.bind_eq_some_iff.2 ⟨t, Bytes.toString?_eq_some.2 rfl, ofName?_eq_some.2 ht⟩
    rw [hk]
    rfl

/-- The name that a control is read with. -/
theorem controlName_eq_ok : controlName path fields kind = .ok name ↔
    Document.lookup fields "name" = some (.string name) ∨
      kind = .null ∧ Document.lookup fields "name" = none ∧ name = [] := by
  rw [controlName]
  split_ifs with hk
  · rw [bind_eq_ok]
    simp only [text?_eq_ok, pure_eq_ok]
    constructor
    · rintro ⟨s?, hs, rfl⟩
      cases s? with
      | none => exact .inr ⟨hk, hs, rfl⟩
      | some s => exact .inl hs
    · rintro (hs | ⟨-, hs, rfl⟩)
      · exact ⟨some name, hs, rfl⟩
      · exact ⟨none, hs, rfl⟩
  · rw [text_eq_ok]
    exact (or_iff_left fun h => hk h.1).symm

theorem controlSymbol_eq_ok : controlSymbol path fields name = .ok n ↔
    Required fields "symbol" (Symbolizes · n) ∨
      Document.lookup fields "symbol" = none ∧ n = if name = [] then 0
        else firstCodePoint name := by
  rw [controlSymbol, Required]
  split
  next v hv => simp [hv, symbol_eq_ok]
  next hv => simp [hv, eq_comm]

theorem optional_macro_iff :
    Optional fields "macro" IsText ↔ ∃ t, controlMacro path fields n = .ok t := by
  rw [optional_isText_iff]
  simp only [controlMacro, bind_eq_ok, pure_eq_ok]
  constructor
  · rintro ⟨s?, hs⟩
    exact ⟨_, s?, hs, rfl⟩
  · rintro ⟨t, s?, hs, -⟩
    exact ⟨s?, hs⟩

theorem controlMovie_eq_ok {b : UInt8} : controlMovie path fields n = .ok b ↔
    Document.lookup fields "movie" = some (.string [b]) ∨
      Optional fields "movie" (· = .string []) ∧ b = if 0 < n ∧
        n < 128 then UInt8.ofNat n.toNat else 0 := by
  rw [controlMovie, bind_eq_ok]
  simp only [text?_eq_ok, Optional]
  constructor
  · rintro ⟨s?, hs, h⟩
    rw [hs]
    -- no text and the empty one leave the symbol, one byte is taken, more are a fault
    rcases s? with _ | _ | ⟨c, _ | ⟨d, rest⟩⟩ <;> cases h
    · exact .inr ⟨nofun, rfl⟩
    · exact .inr ⟨fun v hv => (Option.some.inj hv).symm, rfl⟩
    · exact .inl rfl
  · rintro (hm | ⟨hm, rfl⟩)
    · exact ⟨some [b], hm, rfl⟩
    · cases hv : Document.lookup fields "movie" with
      | none => exact ⟨none, rfl, rfl⟩
      | some v =>
        obtain rfl := hm v hv
        exact ⟨some [], rfl, rfl⟩

def limit (path : String) (fields : Fields) (key : String) (default : ℤ) : Result ℤ :=
  match Document.lookup fields key with
  | none => .ok default
  | some v => integer 16 (fieldPath path key) v

theorem limit_eq_ok {key : String} {default : ℤ} :
    limit path fields key default = .ok n ↔ Limit fields key default n := by
  rw [limit, Limit, Required]
  split
  next hv => simp [hv, eq_comm]
  next v hv =>
    have hbounds : -32768 ≤ n ∧ n < 32768 ↔ -32768 ≤ n ∧ n ≤ 32767 := by omega
    simp only [integer_eq_ok (show 16 ≤ 64 by decide), hv, Option.some.injEq,
      exists_eq_left', reduceCtorEq,
      false_and, false_or, show Int.pow 2 (16 - 1) = 32768 from rfl, hbounds]

theorem Limit.toInt_ofInt {key : String} {default : ℤ} (h : Limit fields key default n)
    (hd : -32768 ≤ default ∧ default ≤ 32767) : (Int16.ofInt n).toInt = n := by
  have hn : -32768 ≤ n ∧ n ≤ 32767 := by
    rcases h with ⟨-, rfl⟩ | ⟨-, h⟩
    · exact hd
    · exact h
  exact Int16.toInt_ofInt_of_le hn.1 (by omega)

/-- Whether the limits that have to be given are. -/
def Complete (shadow : Bool) (fields : Fields) : Prop :=
  shadow = true ∨ (Document.lookup fields "min").isSome ∧ (Document.lookup fields "max").isSome

theorem range_of_complete {shadow : Bool} (h : Complete shadow fields) :
    range path fields shadow = (do
    let low ← limit path fields "min" (-32768)
    let high ← limit path fields "max" 32767
    return (Int16.ofInt low, Int16.ofInt high)) := by
  rw [range]
  refine if_neg ?_
  rcases h with rfl | ⟨hmin, hmax⟩
  · simp
  · simp [Option.isNone_eq_false_iff.2 hmin, Option.isNone_eq_false_iff.2 hmax]

theorem complete_of_range {shadow : Bool} {limits : Int16 × Int16}
    (h : range path fields shadow = .ok limits) :
    Complete shadow fields := by
  by_contra hc
  rw [range] at h
  dsimp only at h
  rw [if_pos] at h
  · cases h
  · rw [Complete, not_or, not_and_or] at hc
    simpa using hc

theorem range_eq_ok {shadow : Bool} {low high : Int16} :
    range path fields shadow = .ok (low, high) ↔
    Complete shadow fields ∧ Limit fields "min" (-32768) low.toInt ∧
      Limit fields "max" 32767 high.toInt := by
  constructor
  · intro h
    have hc := complete_of_range h
    rw [range_of_complete hc, bind_eq_ok] at h
    simp only [bind_eq_ok, pure_eq_ok, Prod.mk.injEq, limit_eq_ok] at h
    obtain ⟨lo, hlo, hi, hhi, rfl, rfl⟩ := h
    rw [hlo.toInt_ofInt (by decide), hhi.toInt_ofInt (by decide)]
    exact ⟨hc, hlo, hhi⟩
  · rintro ⟨hc, hlo, hhi⟩
    rw [range_of_complete hc, bind_eq_ok]
    simp only [bind_eq_ok, pure_eq_ok, Prod.mk.injEq, limit_eq_ok]
    exact ⟨_, hlo, _, hhi, Int16.ofInt_toInt low, Int16.ofInt_toInt high⟩

theorem isMovieByte_iff {b : UInt8} : isMovieByte b = true ↔ Printable b := by
  simp [isMovieByte, Printable, UInt8.lt_iff_toNat_lt, ← UInt8.toNat_inj, and_assoc]

/-- A control has no fault if its byte is printable, for a button, and its range is not empty, for
an axis. -/
theorem fault?_eq_none {c : Control} (hk : ∃ t, (t, c.kind) ∈ typeNames) : c.fault? = none ↔
    (c.kind = .button → Printable c.movie) ∧
      (c.kind.isAxis = true → c.min.toInt ≤ c.max.toInt) := by
  obtain ⟨t, ht⟩ := hk
  rw [← isMovieByte_iff, ← not_lt, ← Int16.lt_iff_toInt_lt, Control.fault?]
  cases hkind : c.kind with
  | unknown code => simp [hkind, typeNames] at ht
  | _ => simp [Kind.isAxis]

theorem controlSymbol_iff_standsFor {k : ℕ}
    (hname : Document.lookup fields "name" = some (.string name))
    (h0 : k ≠ 0) (hk : k ≠ 0xfffd) : controlSymbol path fields name = .ok (k : ℤ) ↔
    StandsFor fields k := by
  rw [controlSymbol_eq_ok]
  constructor
  · rintro (⟨v, hv, h⟩ | ⟨hnone, h⟩)
    · exact .symbol hv h
    · split_ifs at h with hempty
      · exact absurd (Int.ofNat_inj.1 h) h0
      · obtain ⟨c, hc, rfl⟩ := (firstCodePoint_eq hk).1 h.symm
        exact .name hnone hname hc
  · intro h
    generalize hn : (k : ℤ) = n at h
    cases h with
    | symbol hv h => exact .inl ⟨_, hv, h⟩
    | @name s c hnone hs hc =>
      rw [hname] at hs
      cases hs
      obtain rfl := Int.ofNat_inj.1 hn
      refine .inr ⟨hnone, ?_⟩
      rw [if_neg, (firstCodePoint_eq hk).2 ⟨c, hc, rfl⟩]
      rintro rfl
      obtain ⟨more, h⟩ := Text.Utf8.begins_iff.1 hc
      cases h

/-- The byte that a named control is read with is printable exactly if its fields give a printable
one. -/
theorem printable_iff {b : UInt8} (hname : Document.lookup fields "name" = some (.string name))
    (hs : controlSymbol path fields name = .ok n) (hm : controlMovie path fields n = .ok b) :
    Printable b ↔ ∃ b, MovieByte fields b ∧ Printable b := by
  rcases controlMovie_eq_ok.1 hm with hgiven | ⟨hempty, hb⟩
  · constructor
    · intro hp
      exact ⟨b, .given hgiven, hp⟩
    · rintro ⟨b', h | ⟨h, -, -⟩, hp⟩
      · rw [hgiven] at h
        cases h
        exact hp
      · cases h _ hgiven
  constructor
  · intro hp
    have hn : 0 < n ∧ n < 128 := by
      by_contra hn
      rw [if_neg hn] at hb
      subst hb
      exact absurd hp.1 (by decide)
    rw [if_pos hn] at hb
    have hbn : (b.toNat : ℤ) = n := by
      rw [hb, UInt8.toNat_ofNat_of_lt' (by omega : n.toNat < 256)]
      omega
    refine ⟨b, .symbol hempty (by omega) ?_, hp⟩
    rw [← controlSymbol_iff_standsFor hname (by omega) (by omega), hbn]
    exact hs
  · rintro ⟨b', hgiven | ⟨-, hlt, h⟩, hp⟩
    · cases hempty _ hgiven
    · have h32 := hp.1
      rw [← controlSymbol_iff_standsFor hname (by omega) (by omega), hs] at h
      cases h
      have hb' : b = b' := by
        rw [hb, if_pos (by omega), Int.toNat_natCast, UInt8.ofNat_toNat]
      exact hb' ▸ hp

/-- Reading a control: what is read of each field, with the fields before it. -/
theorem control_eq_ok {c : Control} : control path v = .ok c ↔ ∃ fields, v = .object fields ∧
    Descriptor.kind path fields = .ok c.kind ∧ controlName path fields c.kind = .ok c.name ∧
    flag path fields "shadow" = .ok c.shadow ∧ flag path fields "centers" = .ok c.centers ∧
    controlSymbol path fields c.name = .ok c.symbol ∧
    controlMacro path fields c.symbol = .ok c.macroText ∧
    controlMovie path fields c.symbol = .ok c.movie ∧
    (if c.kind.isAxis then range path fields c.shadow else pure (0, 0)) = .ok (c.min, c.max) ∧
    onlyKnown path (controlFields c.kind) fields = .ok () ∧ c.fault? = none := by
  constructor
  · intro h
    simp only [control, bind_eq_ok, ite_bind_eq_ok, pure_eq_ok, object_eq_ok] at h
    obtain ⟨fields, rfl, kind, hkind, name, hname, shadow, hshadow, centers, hcenters, symbol,
      hsymbol, macroText, hmacro, movie, hmovie, ⟨low, high⟩, hrange, u, hkeys, w, hfault, rfl⟩ := h
    exact ⟨fields, rfl, hkind, hname, hshadow, hcenters, hsymbol, hmacro, hmovie, hrange, hkeys,
      (Control.validate_ok_iff _ path).1 hfault⟩
  · rintro ⟨fields, rfl, hkind, hname, hshadow, hcenters, hsymbol, hmacro, hmovie,
      hrange, hkeys, hfault⟩
    simp only [control, bind_eq_ok, ite_bind_eq_ok, pure_eq_ok, object_eq_ok]
    exact ⟨fields, rfl, _, hkind, _, hname, _, hshadow, _, hcenters, _, hsymbol, _, hmacro, _,
      hmovie, _, hrange, _, hkeys, _, (Control.validate_ok_iff c path).2 hfault, rfl⟩

theorem isControl_of_control {c : Control} (h : control path v = .ok c) : IsControl v := by
  obtain ⟨fields, rfl, hkind, hname, hshadow, hcenters, hsymbol, hmacro, hmovie, hrange,
    hkeys, hfault⟩ :=
    control_eq_ok.1 h
  obtain ⟨t, ht, htype⟩ := kind_eq_ok.1 hkind
  obtain ⟨hprintable, hordered⟩ := (fault?_eq_none ⟨t, ht⟩).1 hfault
  have hnamed (hk : c.kind ≠ .null) : Document.lookup fields "name" = some (.string c.name) :=
    (controlName_eq_ok.1 hname).resolve_right fun h => hk h.1
  refine ⟨fields, c.kind, rfl, ?_⟩
  constructor
  case type => exact ⟨t, ht, htype⟩
  case keys => exact onlyKnown_eq_ok.1 hkeys
  case name =>
    intro v hv
    rcases controlName_eq_ok.1 hname with hs | ⟨-, hs, -⟩ <;> rw [hs] at hv <;> cases hv
    exact ⟨_⟩
  case named =>
    intro hk
    rw [hnamed hk]
    rfl
  case shadow => exact optional_isFlag_iff.2 ⟨_, hshadow⟩
  case centers => exact optional_isFlag_iff.2 ⟨_, hcenters⟩
  case symbol =>
    intro v hv
    rcases controlSymbol_eq_ok.1 hsymbol with ⟨w, hw, h⟩ | ⟨hnone, -⟩
    · rw [hw] at hv
      cases hv
      exact ⟨_, h⟩
    · rw [hnone] at hv
      cases hv
  case macroText => exact optional_macro_iff.2 ⟨_, hmacro⟩
  case movie =>
    intro v hv
    rcases controlMovie_eq_ok.1 hmovie with hgiven | ⟨hempty, -⟩
    · rw [hgiven] at hv
      cases hv
      exact ⟨_, rfl, le_rfl⟩
    · exact ⟨_, hempty v hv, Nat.zero_le 1⟩
  case range =>
    intro haxis
    rw [if_pos haxis, range_eq_ok] at hrange
    obtain ⟨hcomplete, hlow, hhigh⟩ := hrange
    refine ⟨hcomplete.imp_left fun hs => ?_, _, _, hlow, hhigh, hordered haxis⟩
    rw [hs] at hshadow
    exact (flag_eq_ok.1 hshadow).resolve_left (by simp)
  case movieByte =>
    intro hbutton
    exact (printable_iff (hnamed (by rw [hbutton]; decide)) hsymbol hmovie).1 (hprintable hbutton)

theorem control_of_isControl (path : String) (h : IsControl v) : ∃ c, control path v = .ok c := by
  obtain ⟨fields, kind, rfl, g⟩ := h
  have hkind : Descriptor.kind path fields = .ok kind := kind_eq_ok.2 g.type
  obtain ⟨name, hname⟩ : ∃ name, controlName path fields kind = .ok name := by
    simp only [controlName_eq_ok]
    cases hv : Document.lookup fields "name" with
    | none =>
      refine ⟨[], .inr ⟨?_, rfl, rfl⟩⟩
      by_contra hk
      have := g.named hk
      rw [hv] at this
      cases this
    | some v =>
      obtain ⟨s⟩ := g.name v hv
      exact ⟨s, .inl rfl⟩
  obtain ⟨shadow, hshadow⟩ := optional_isFlag_iff.1 g.shadow
  obtain ⟨centers, hcenters⟩ := optional_isFlag_iff.1 g.centers
  obtain ⟨symbol, hsymbol⟩ : ∃ n, controlSymbol path fields name = .ok n := by
    simp only [controlSymbol_eq_ok]
    cases hv : Document.lookup fields "symbol" with
    | none => exact ⟨_, .inr ⟨rfl, rfl⟩⟩
    | some v =>
      obtain ⟨n, hn⟩ := g.symbol v hv
      exact ⟨n, .inl ⟨v, hv, hn⟩⟩
  obtain ⟨macroText, hmacro⟩ := optional_macro_iff.1 g.macroText
  obtain ⟨movie, hmovie⟩ : ∃ b, controlMovie path fields symbol = .ok b := by
    simp only [controlMovie_eq_ok, Optional]
    cases hv : Document.lookup fields "movie" with
    | none => exact ⟨_, .inr ⟨nofun, rfl⟩⟩
    | some v =>
      obtain ⟨s, rfl, hs⟩ := g.movie v hv
      rcases s with _ | ⟨b, _ | ⟨d, rest⟩⟩
      · exact ⟨_, .inr ⟨fun w hw => (Option.some.inj hw).symm, rfl⟩⟩
      · exact ⟨b, .inl rfl⟩
      · simp at hs
  obtain ⟨low, high, hlimits, hordered⟩ : ∃ low high : Int16,
      (if kind.isAxis then range path fields shadow else pure (0, 0)) = .ok (low, high) ∧
        (kind.isAxis = true → low.toInt ≤ high.toInt) := by
    split_ifs with haxis
    · obtain ⟨hcomplete, lo, hi, hlo, hhi, hle⟩ := g.range haxis
      have hlo' : (Int16.ofInt lo).toInt = lo := hlo.toInt_ofInt (by decide)
      have hhi' : (Int16.ofInt hi).toInt = hi := hhi.toInt_ofInt (by decide)
      refine ⟨Int16.ofInt lo, Int16.ofInt hi, range_eq_ok.2 ⟨?_, ?_, ?_⟩, fun _ => ?_⟩
      · refine hcomplete.imp_left fun hs => ?_
        rcases flag_eq_ok.1 hshadow with ⟨hnone, -⟩ | hb
        · rw [hs] at hnone
          cases hnone
        · rw [hs] at hb
          cases hb
          rfl
      · rwa [hlo']
      · rwa [hhi']
      · rwa [hlo', hhi']
    · exact ⟨0, 0, rfl, fun h => absurd h haxis⟩
  let c : Control :=
    { name, kind, symbol, macroText, movie, shadow, min := low, max := high, centers }
  have hfault : c.fault? = none := by
    obtain ⟨t, ht, -⟩ := g.type
    refine (fault?_eq_none ⟨t, ht⟩).2 ⟨fun hbutton => ?_, hordered⟩
    have hnamed := (controlName_eq_ok.1 hname).resolve_right fun h => by
      rw [show kind = .button from hbutton] at h
      cases h.1
    exact (printable_iff hnamed hsymbol hmovie).2 (g.movieByte hbutton)
  exact ⟨c, control_eq_ok.2 ⟨fields, rfl, hkind, hname, hshadow, hcenters, hsymbol, hmacro,
    hmovie, hlimits, onlyKnown_eq_ok.2 g.keys, hfault⟩⟩

theorem isControl_iff : IsControl v ↔ ∃ c, control path v = .ok c :=
  ⟨control_of_isControl path, fun ⟨_, h⟩ => isControl_of_control h⟩

end Controls

section Lists

variable {α : Type} {path : String} {read : String → Value → Result α} {vs : List Value}

/-- A list is read if each of its items is, whatever the paths. -/
theorem each_eq_ok_iff {P : Value → Prop}
    (hread : ∀ path v, P v ↔ ∃ a, read path v = .ok a) (i : ℕ) :
    (∃ as, each path read i vs = .ok as) ↔ ∀ v ∈ vs, P v := by
  induction vs generalizing i with
  | nil => simp [each]
  | cons v rest ih =>
    simp only [each, bind_eq_ok, pure_eq_ok, List.forall_mem_cons, ← ih (i + 1),
      hread (itemPath path i) v]
    constructor
    · rintro ⟨as, a, ha, rest, hrest, -⟩
      exact ⟨⟨a, ha⟩, rest, hrest⟩
    · rintro ⟨⟨a, ha⟩, rest, hrest⟩
      exact ⟨_, a, ha, rest, hrest, rfl⟩

theorem mem_of_each {as : List α} {a : α} {i : ℕ} (h : each path read i vs = .ok as) (ha : a ∈ as) :
    ∃ path v, read path v = .ok a := by
  induction vs generalizing i as with
  | nil =>
    cases h
    cases ha
  | cons v rest ih =>
    simp only [each, bind_eq_ok, pure_eq_ok] at h
    obtain ⟨b, hb, bs, hbs, rfl⟩ := h
    rcases List.mem_cons.1 ha with rfl | ha
    · exact ⟨_, _, hb⟩
    · exact ih hbs ha

/-- A field that holds a list is read if each of the items is. -/
theorem required_isListOf_iff {P : Value → Prop} {fields : Fields} {key listPath : String}
    (hread : ∀ path v, P v ↔ ∃ a, read path v = .ok a) : Required fields key (IsListOf P) ↔
      ∃ vs as, items path fields key = .ok vs ∧ each listPath read 0 vs = .ok as := by
  simp only [items_eq_ok, exists_and_left, each_eq_ok_iff hread]
  constructor
  · rintro ⟨v, hv, vs, hvs, h⟩
    exact ⟨vs, ⟨v, hv, hvs⟩, h⟩
  · rintro ⟨vs, ⟨v, hv, hvs⟩, h⟩
    exact ⟨v, hv, vs, hvs, h⟩

end Lists

section Port

variable {path : String} {v : Value} {fields : Fields}

theorem isController_iff : IsController v ↔ ∃ c, controller path v = .ok c := by
  constructor
  · rintro ⟨fields, rfl, g⟩
    obtain ⟨family, hfamily⟩ := required_isText_iff.1 g.family
    obtain ⟨model, hmodel⟩ := required_isText_iff.1 g.model
    obtain ⟨vs, controls, hvs, hcontrols⟩ :=
      (required_isListOf_iff fun _ _ => isControl_iff).1 g.controls
    refine ⟨{ family, model, controls }, ?_⟩
    simp only [controller, bind_eq_ok, pure_eq_ok, object_eq_ok]
    exact ⟨fields, rfl, family, hfamily, model, hmodel, vs, hvs, controls, hcontrols, _,
      onlyKnown_eq_ok.2 g.keys, rfl⟩
  · rintro ⟨c, h⟩
    simp only [controller, bind_eq_ok, pure_eq_ok, object_eq_ok] at h
    obtain ⟨fields, rfl, family, hfamily, model, hmodel, vs, hvs, controls, hcontrols, u,
      hkeys, rfl⟩ := h
    exact ⟨fields, rfl, onlyKnown_eq_ok.1 hkeys, required_isText_iff.2 ⟨_, hfamily⟩,
      required_isText_iff.2 ⟨_, hmodel⟩,
        (required_isListOf_iff fun _ _ => isControl_iff).2 ⟨vs, controls, hvs, hcontrols⟩⟩

/-- The controls of a controller that was read have no fault. -/
theorem fault?_of_controller {c : Controller} {b : Control} (h : controller path v = .ok c)
    (hb : b ∈ c.controls) :
    b.fault? = none := by
  simp only [controller, bind_eq_ok, pure_eq_ok] at h
  obtain ⟨fields, hf, family, hfamily, model, hmodel, vs, hvs, controls, hcontrols, u,
    hkeys, rfl⟩ := h
  obtain ⟨path, w, hw⟩ := mem_of_each hcontrols hb
  obtain ⟨_, _, _, _, _, _, _, _, _, _, _, hfault⟩ := control_eq_ok.1 hw
  exact hfault

theorem port_of_grammar (g : PortGrammar fields) : ∃ p, port fields = .ok p := by
  obtain ⟨_, hname, name, rfl, hne⟩ := g.name
  obtain ⟨humanName, hhuman⟩ := optional_isText_iff.1 g.humanName
  obtain ⟨symbol, hsymbol⟩ := optional_isText_iff.1 g.symbol
  obtain ⟨vs, slots, hvs, hslots⟩ := (required_isListOf_iff fun _ _ => isSlot_iff).1 g.slots
  obtain ⟨ws, controllers, hws, hcontrollers⟩ :=
    (required_isListOf_iff fun _ _ => isController_iff).1 g.controllers
  simp only [port, bind_eq_ok, pure_eq_ok]
  refine ⟨_, name, text_eq_ok.2 hname, humanName, hhuman, symbol, hsymbol, vs, hvs, slots, hslots,
    ws, hws, controllers,
    hcontrollers, (), onlyKnown_eq_ok.2 g.keys, (), (Port.validate_ok_iff _).2 ⟨hne, ?_⟩, rfl⟩
  intro c hc b hb
  obtain ⟨path, w, hw⟩ := mem_of_each hcontrollers hc
  exact fault?_of_controller hw hb

theorem grammar_of_port {p : Port} (h : port fields = .ok p) : PortGrammar fields := by
  simp only [port, bind_eq_ok, pure_eq_ok] at h
  obtain ⟨name, hname, humanName, hhuman, symbol, hsymbol, vs, hvs, slots, hslots, ws, hws,
    controllers, hcontrollers, u, hkeys, w, hvalid, rfl⟩ := h
  obtain ⟨hne, -⟩ := (Port.validate_ok_iff _).1 hvalid
  constructor
  case keys => exact onlyKnown_eq_ok.1 hkeys
  case name => exact ⟨_, text_eq_ok.1 hname, name, rfl, hne⟩
  case humanName => exact optional_isText_iff.2 ⟨_, hhuman⟩
  case symbol => exact optional_isText_iff.2 ⟨_, hsymbol⟩
  case slots => exact (required_isListOf_iff fun _ _ => isSlot_iff).2 ⟨vs, slots, hvs, hslots⟩
  case controllers =>
    exact (required_isListOf_iff fun _ _ => isController_iff).2 ⟨ws, controllers, hws, hcontrollers⟩

/-- A tree is read as a port exactly if it is one by the grammar. -/
theorem accepts_iff (v : Value) : (∃ p, ofValue v = .ok p) ↔ IsPort v := by
  constructor
  · rintro ⟨p, h⟩
    cases v with
    | object fields => exact ⟨fields, rfl, grammar_of_port h⟩
    | _ => cases h
  · rintro ⟨fields, rfl, g⟩
    exact port_of_grammar g

end Port

end PortCodec.Descriptor
