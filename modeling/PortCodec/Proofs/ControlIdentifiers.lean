import PortCodec.Bindings.Summary
import PortCodec.Proofs.PlanInvariant

/-! When the identifiers of controls are distinct. Equal identifiers are told apart by the number of
times that they came before, and nobody looks whether the numbered one was asked for as well. -/

namespace PortCodec.Bindings

open Layout

section Spelling

theorem isDigit_of_mem_toString {c : Char} {n : ℕ} (h : c ∈ (toString n).toList) :
    c.isDigit = true := by
  rw [Nat.toString_eq_repr, Nat.repr_eq_ofList_toDigits, String.toList_ofList] at h
  exact Nat.isDigit_of_mem_toDigits (by norm_num) le_rfl h

theorem not_mem_toString {c : Char} (hc : c.isDigit = false) (n : ℕ) : c ∉ (toString n).toList := by
  intro h
  exact absurd (isDigit_of_mem_toString h) (by rw [hc]; exact Bool.false_ne_true)

theorem toString_nat_inj {m n : ℕ} (h : (toString m).toList = (toString n).toList) : m = n := by
  have hread := congrArg (fun ds => Nat.ofDigitChars 10 ds 0) h
  simpa [Nat.repr_eq_ofList_toDigits, Nat.ofDigitChars_toDigits] using hread

theorem toList_suffix (s : String) (n : ℕ) :
    s!"{s}_{n}".toList = s.toList ++ '_' :: (toString n).toList := by
  change (s ++ "_" ++ toString n).toList = _
  rw [String.toList_append, String.toList_append, List.append_assoc]
  rfl

theorem toList_place (k : ℕ) (s : String) :
    s!"p{k}_{s}".toList = 'p' :: ((toString k).toList ++ '_' :: s.toList) := by
  change ("p" ++ toString k ++ "_" ++ s).toList = _
  rw [String.toList_append, String.toList_append, String.toList_append, List.append_assoc,
    List.append_assoc]
  rfl

/-- Texts that part at the first `c` part in one way. -/
theorem append_cons_inj {c : Char} {ds es xs ys : List Char} (hd : c ∉ ds) (he : c ∉ es)
    (h : ds ++ c :: xs = es ++ c :: ys) : ds = es ∧ xs = ys := by
  induction ds generalizing es with
  | nil =>
    cases es with
    | nil => exact ⟨rfl, (List.cons.inj h).2⟩
    | cons e es => exact absurd (List.cons.inj h).1 (List.ne_of_not_mem_cons he)
  | cons d ds ih =>
    cases es with
    | nil => exact absurd (List.cons.inj h).1.symm (List.ne_of_not_mem_cons hd)
    | cons e es =>
      obtain ⟨rfl, hrest⟩ := List.cons.inj h
      obtain ⟨rfl, rfl⟩ :=
        ih (List.not_mem_of_not_mem_cons hd) (List.not_mem_of_not_mem_cons he) hrest
      exact ⟨rfl, rfl⟩

theorem suffix_inj {s t : String} {m n : ℕ} (h : s!"{s}_{m}" = s!"{t}_{n}") : s = t ∧ m = n := by
  -- the number is what stands behind the last underscore
  have hback := congrArg (fun u => u.toList.reverse) h
  simp only [toList_suffix, List.reverse_append, List.reverse_cons, List.append_assoc,
    List.singleton_append] at hback
  obtain ⟨hn, hs⟩ := append_cons_inj (mt List.mem_reverse.1 (not_mem_toString rfl m))
    (mt List.mem_reverse.1 (not_mem_toString rfl n)) hback
  exact ⟨String.toList_inj.1 (List.reverse_injective hs),
    toString_nat_inj (List.reverse_injective hn)⟩

theorem place_inj {s t : String} {k j : ℕ} (h : s!"p{k}_{s}" = s!"p{j}_{t}") : k = j ∧ s = t := by
  have hlist := congrArg String.toList h
  rw [toList_place, toList_place] at hlist
  obtain ⟨hk, hs⟩ := append_cons_inj (not_mem_toString rfl k) (not_mem_toString rfl j)
    (List.cons.inj hlist).2
  exact ⟨toString_nat_inj hk, String.toList_inj.1 hs⟩

end Spelling

section Repeats

/-- Each text with the number of times that it came before. -/
def occurrences : (earlier : List String) → List String → List (String × ℕ)
  | _, [] => []
  | earlier, s :: rest => (s, earlier.count s) :: occurrences (s :: earlier) rest

def numbered (x : String × ℕ) : String := if x.2 = 0 then x.1 else s!"{x.1}_{x.2}"

theorem numberRepeats_eq (earlier bs : List String) :
    numberRepeats earlier bs = (occurrences earlier bs).map numbered := by
  induction bs generalizing earlier with
  | nil => rfl
  | cons s rest ih => rw [numberRepeats, occurrences, List.map_cons, ih]; rfl

theorem mem_occurrences {earlier bs : List String} {s : String} {n : ℕ} :
    (s, n) ∈ occurrences earlier bs ↔ earlier.count s ≤ n ∧ n < earlier.count s + bs.count s := by
  induction bs generalizing earlier with
  | nil => simp [occurrences]
  | cons t rest ih =>
    rw [occurrences, List.mem_cons, ih, Prod.mk.injEq]
    by_cases h : s = t
    · subst h
      simp only [true_and, List.count_cons_self]
      omega
    · simp [h, List.count_cons_of_ne (Ne.symm h)]

theorem nodup_occurrences (earlier bs : List String) : (occurrences earlier bs).Nodup := by
  induction bs generalizing earlier with
  | nil => exact List.nodup_nil
  | cons s rest ih =>
    refine List.nodup_cons.2 ⟨fun h => ?_, ih _⟩
    obtain ⟨h, -⟩ := mem_occurrences.1 h
    rw [List.count_cons_self] at h
    omega

/-- Numbered texts are distinct unless one of them was there before. -/
theorem nodup_numberRepeats (bs : List String) : (numberRepeats [] bs).Nodup ↔
    ∀ s n, 0 < n → n < bs.count s → s!"{s}_{n}" ∉ bs := by
  have hmem {s : String} {n : ℕ} : (s, n) ∈ occurrences [] bs ↔ n < bs.count s := by
    simp [mem_occurrences]
  rw [numberRepeats_eq, List.nodup_map_iff_inj_on (nodup_occurrences [] bs)]
  constructor
  · intro h s n hn hc hs
    have hfirst : (s!"{s}_{n}", 0) ∈ occurrences [] bs := hmem.2 (List.count_pos_iff.2 hs)
    have heq := h _ hfirst _ (hmem.2 hc) (by simp [numbered, hn.ne'])
    have hzero : 0 = n := congrArg Prod.snd heq
    omega
  · rintro h ⟨s, m⟩ hs ⟨t, n⟩ ht heq
    rw [hmem] at hs ht
    -- only a text that is not numbered can meet one that is
    rcases Nat.eq_zero_or_pos m with rfl | hm <;> rcases Nat.eq_zero_or_pos n with rfl | hn
    · simpa [numbered] using heq
    · have hst : s = s!"{t}_{n}" := by simpa [numbered, hn.ne'] using heq
      exact absurd (hst ▸ List.count_pos_iff.1 hs) (h t n hn ht)
    · have hst : s!"{s}_{m}" = t := by simpa [numbered, hm.ne'] using heq
      exact absurd (hst ▸ List.count_pos_iff.1 ht) (h s m hm hs)
    · have hst : s!"{s}_{m}" = s!"{t}_{n}" := by simpa [numbered, hm.ne', hn.ne'] using heq
      obtain ⟨rfl, rfl⟩ := suffix_inj hst
      rfl

end Repeats

section Controllers

/-- The identifiers that the names of a controller's stored controls ask for. -/
def wanted (c : Controller) : List String :=
  (c.controls.zipIdx.filter (·.1.kind.isStored)).map fun (x, i) =>
    identifier (snakeCase (Text.Utf8.repaired x.name)) s!"control{i}"

def located (p : Port) (k : ℕ) (s : String) : String :=
  if 1 < p.controllers.length then s!"p{k}_{s}" else s

def wantedAll (p : Port) (k : ℕ) (cs : List Controller) : List String :=
  (cs.zipIdx k).flatMap fun (c, j) => (wanted c).map (located p j)

theorem located_inj {p : Port} {j k : ℕ} {s t : String} (hj : j < p.controllers.length)
    (hk : k < p.controllers.length) (h : located p j s = located p k t) : j = k ∧ s = t := by
  unfold located at h
  split_ifs at h with hmany
  · exact place_inj h
  · exact ⟨by omega, h⟩

theorem located_suffix (p : Port) (k : ℕ) (s : String) (n : ℕ) :
    s!"{located p k s}_{n}" = located p k s!"{s}_{n}" := by
  unfold located
  split_ifs
  · simp only [String.ext_iff, toList_suffix, toList_place, List.cons_append, List.append_assoc]
  · rfl

theorem planControls_stored (f : ℕ → ℕ → String) (base k i : ℕ) (placed : Placed)
    (cs : List Control) :
    ((planControls base k i placed cs).1.filter Entry.isStored).map
        (fun e => f e.controller e.control) =
      ((cs.zipIdx i).filter (·.1.kind.isStored)).map fun x => f k x.2 := by
  induction cs generalizing i placed with
  | nil => rfl
  | cons c cs ih =>
    have hkind : (entryAt base k i placed c).isStored = c.kind.isStored := by
      unfold entryAt place Entry.isStored
      split_ifs <;> rfl
    change ((entryAt base k i placed c :: (planControls base k (i + 1) (placed.next c) cs).1).filter
      Entry.isStored).map _ = _
    rw [List.zipIdx_cons, List.filter_cons, List.filter_cons, hkind]
    split_ifs
    · rw [List.map_cons, List.map_cons, ih]
      rfl
    · exact ih (i + 1) (placed.next c)

theorem planControllers_stored (f : ℕ → ℕ → String) (base stride : ℕ) (system : Bool) (k : ℕ)
    (placed : Placed) (cs : List Controller) :
    ((planControllers base stride system k placed cs).1.filter Entry.isStored).map
        (fun e => f e.controller e.control) =
      (cs.zipIdx k).flatMap fun (c, j) =>
        (c.controls.zipIdx.filter (·.1.kind.isStored)).map fun x => f j x.2 := by
  induction cs generalizing k placed with
  | nil => rfl
  | cons c cs ih =>
    have hpad : (padding k c.controls.length stride).filter Entry.isStored = [] := by
      rw [List.filter_eq_nil_iff]
      intro e he
      obtain ⟨i, -, rfl⟩ := List.mem_map.1 he
      exact Bool.false_ne_true
    rw [planControllers_index_cons, List.filter_append, List.filter_append, hpad, List.nil_append,
      List.map_append, planControls_stored, ih, List.zipIdx_cons, List.flatMap_cons]

theorem map_baseIdentifier (p : Port) :
    ((plan p).index.filter Entry.isStored).map (baseIdentifier p (plan p)) =
      wantedAll p 0 p.controllers := by
  let f (k i : ℕ) : String := baseIdentifier p (plan p) { controller := k, control := i }
  have h := planControllers_stored f (((plan p).buttonBits + 7) / 8) (plan p).stride p.isSystem 0 {}
    p.controllers
  rw [← plan_index] at h
  refine h.trans (List.flatMap_congr fun ⟨c, k⟩ hc => ?_)
  have hk : p.controllers[k]? = some c := List.mem_zipIdx_iff_getElem?.1 hc
  simp only [wanted, List.map_map]
  refine List.map_congr_left fun ⟨x, i⟩ hx => ?_
  have hi : c.controls[i]? = some x := List.mem_zipIdx_iff_getElem?.1 (List.mem_of_mem_filter hx)
  simp only [f, baseIdentifier, controlOf, hk, hi, Option.bind_some, Option.getD_some]
  rfl

theorem length_numberRepeats (earlier bs : List String) :
    (numberRepeats earlier bs).length = bs.length := by
  induction bs generalizing earlier with
  | nil => rfl
  | cons s rest ih => rw [numberRepeats, List.length_cons, ih, List.length_cons]

theorem identifiers_eq (p : Port) :
    (summarize p (plan p)).controls.map (·.identifier) =
      numberRepeats [] (wantedAll p 0 p.controllers) := by
  have hlength := length_numberRepeats []
    (((plan p).index.filter Entry.isStored).map (baseIdentifier p (plan p)))
  rw [List.length_map] at hlength
  have hsnd := List.map_snd_zip hlength.le
  rw [List.zip, List.map_zipWith, map_baseIdentifier] at hsnd
  simpa only [summarize, namedControl, map_baseIdentifier, List.map_zipWith] using hsnd

theorem wantedAll_cons (p : Port) (j : ℕ) (c : Controller) (cs : List Controller) :
    wantedAll p j (c :: cs) = (wanted c).map (located p j) ++ wantedAll p (j + 1) cs := rfl

theorem mem_wantedAll {p : Port} {j : ℕ} {cs : List Controller} {b : String} :
    b ∈ wantedAll p j cs ↔ ∃ i c, cs[i]? = some c ∧ ∃ s ∈ wanted c, located p (j + i) s = b := by
  induction cs generalizing j with
  | nil => simp [wantedAll]
  | cons c cs ih =>
    rw [wantedAll_cons, List.mem_append, List.mem_map, ih]
    constructor
    · rintro (⟨s, hs, rfl⟩ | ⟨i, d, hd, s, hs, rfl⟩)
      · exact ⟨0, c, rfl, s, hs, rfl⟩
      · exact ⟨i + 1, d, hd, s, hs, by rw [Nat.add_assoc, Nat.add_comm 1]⟩
    · rintro ⟨i, d, hd, s, hs, rfl⟩
      cases i with
      | zero => exact .inl ⟨s, Option.some.inj hd ▸ hs, rfl⟩
      | succ i => exact .inr ⟨i, d, hd, s, hs, by rw [Nat.add_assoc, Nat.add_comm 1]⟩

/-- Controllers do not share identifiers: an identifier is asked for as often as its controller
does. -/
theorem count_wantedAll {p : Port} {j i : ℕ} {cs : List Controller} {c : Controller}
    (hj : j + cs.length ≤ p.controllers.length) (hc : cs[i]? = some c) (s : String) :
    (wantedAll p j cs).count (located p (j + i) s) = (wanted c).count s := by
  induction cs generalizing i j with
  | nil => cases hc
  | cons d cs ih =>
    rw [List.length_cons] at hj
    rw [wantedAll_cons, List.count_append]
    cases i with
    | zero =>
      obtain rfl := Option.some.inj hc
      have hown : ((wanted d).map (located p j)).count (located p (j + 0) s) = (wanted d).count s :=
        List.count_map_of_injective _ _ (fun t u h => (located_inj (by omega) (by omega) h).2) s
      have hothers : (wantedAll p (j + 1) cs).count (located p (j + 0) s) = 0 := by
        rw [List.count_eq_zero, mem_wantedAll]
        rintro ⟨i, e, he, t, -, h⟩
        have hi := (List.getElem?_eq_some_iff.1 he).1
        have := (located_inj (by omega) (by omega) h).1
        omega
      rw [hown, hothers, Nat.add_zero]
    | succ i =>
      have hi := (List.getElem?_eq_some_iff.1 hc).1
      rw [List.length_cons] at hi
      have hown : ((wanted d).map (located p j)).count (located p (j + (i + 1)) s) = 0 := by
        rw [List.count_eq_zero, List.mem_map]
        rintro ⟨t, -, h⟩
        have := (located_inj (by omega) (by omega) h).1
        omega
      have hrest := @ih (j + 1) i (by omega) hc
      rw [Nat.add_assoc, Nat.add_comm 1] at hrest
      rw [hown, hrest, Nat.zero_add]

/-- The identifiers of a port are distinct exactly when no controller asks for a numbered identifier
that its repeated ones get as well. -/
theorem nodup_identifiers_iff (p : Port) :
    ((summarize p (plan p)).controls.map (·.identifier)).Nodup ↔
      ∀ c ∈ p.controllers, ∀ s n, 0 < n → n < (wanted c).count s → s!"{s}_{n}" ∉ wanted c := by
  have hcount {k : ℕ} {c : Controller} (hk : p.controllers[k]? = some c) (s : String) :
      (wantedAll p 0 p.controllers).count (located p k s) = (wanted c).count s := by
    have := count_wantedAll (p := p) (j := 0) (by omega) hk s
    rwa [Nat.zero_add] at this
  rw [identifiers_eq, nodup_numberRepeats]
  constructor
  · intro h c hc s n hn hlt hmem
    obtain ⟨k, hk⟩ := List.mem_iff_getElem?.1 hc
    refine h (located p k s) n hn (hlt.trans_eq (hcount hk s).symm) ?_
    rw [located_suffix, ← List.count_pos_iff, hcount hk]
    exact List.count_pos_iff.2 hmem
  · intro h b n hn hlt hmem
    obtain ⟨k, c, hk, s, hs, rfl⟩ := mem_wantedAll.1 (List.count_pos_iff.1 (Nat.zero_lt_of_lt hlt))
    rw [Nat.zero_add] at hlt hmem
    rw [hcount hk] at hlt
    rw [located_suffix, ← List.count_pos_iff, hcount hk] at hmem
    exact h c (List.mem_of_getElem? hk) s n hn hlt (List.count_pos_iff.1 hmem)

/-- Buttons `a`, `a` and `a_1`: the third asks for what the second is given. -/
def suffixedNames : Port where
  name := [112]
  humanName := [112]
  symbol := [112]
  controllers := [⟨[], [], [.button [97] 65, .button [97] 66, .button [97, 95, 49] 67]⟩]
  slots := [1]

theorem not_nodup_identifiers : suffixedNames.validate = .ok () ∧
    ¬ ((summarize suffixedNames (plan suffixedNames)).controls.map (·.identifier)).Nodup := by
  have h : (summarize suffixedNames (plan suffixedNames)).controls.map (·.identifier) =
      ["a", "a_1", "a_1"] := by decide +kernel
  exact ⟨rfl, by rw [h]; decide⟩

end Controllers

section Characters

variable {p : Port} {s : String}

/-- The identifiers of a port, taken apart. -/
theorem mem_identifiers (h : s ∈ (summarize p (plan p)).controls.map (·.identifier)) :
    ∃ c ∈ p.controllers, ∃ k, ∃ own ∈ wanted c, ∃ n, s = numbered (located p k own, n) := by
  rw [identifiers_eq, numberRepeats_eq] at h
  obtain ⟨⟨b, n⟩, hb, rfl⟩ := List.mem_map.1 h
  have hlt := (mem_occurrences.1 hb).2
  rw [List.count_nil, Nat.zero_add] at hlt
  obtain ⟨k, c, hk, own, hown, rfl⟩ :=
    mem_wantedAll.1 (List.count_pos_iff.1 (Nat.zero_lt_of_lt hlt))
  exact ⟨c, List.mem_of_getElem? hk, 0 + k, own, hown, n, rfl⟩

variable {q : Char → Prop}

theorem forall_mem_identifier {t fallback : String} (hsign : q '_') (ht : ∀ d ∈ t.toList, q d)
    (hf : ∀ d ∈ fallback.toList, q d) : ∀ d ∈ (identifier t fallback).toList, q d := by
  unfold identifier
  split
  · exact hf
  · split_ifs
    · intro d hd
      rw [String.toList_append, List.mem_append] at hd
      rcases hd with hd | hd
      · rwa [List.mem_singleton.1 hd]
      · exact ht d hd
    · exact ht

/-- Identifiers have no characters but those of the names in snake case and those that fallbacks,
controllers and repeats bring in. -/
theorem forall_mem_identifiers (hdigit : ∀ d, d.isDigit = true → q d) (hsign : q '_')
    (hletter : ∀ d ∈ "control".toList, q d) (hp : q 'p')
    (hname : ∀ c ∈ p.controllers, ∀ x ∈ c.controls, ∀ d ∈
    (snakeCase (Text.Utf8.repaired x.name)).toList, q d)
    (h : s ∈ (summarize p (plan p)).controls.map (·.identifier)) : ∀ d ∈ s.toList, q d := by
  have hnumber (n : ℕ) : ∀ d ∈ (toString n).toList, q d :=
    fun d hd => hdigit d (isDigit_of_mem_toString hd)
  obtain ⟨c, hc, k, own, hown, n, rfl⟩ := mem_identifiers h
  have hwanted : ∀ d ∈ own.toList, q d := by
    obtain ⟨⟨x, i⟩, hx, rfl⟩ := List.mem_map.1 hown
    have hxc : x ∈ c.controls :=
      List.mem_of_getElem? (List.mem_zipIdx_iff_getElem?.1 (List.mem_of_mem_filter hx))
    refine forall_mem_identifier hsign (hname c hc x hxc) fun d hd => ?_
    change d ∈ ("control" ++ toString i).toList at hd
    rw [String.toList_append, List.mem_append] at hd
    exact hd.elim (hletter d) (hnumber i d)
  have hlocated : ∀ d ∈ (located p k own).toList, q d := by
    unfold located
    split_ifs
    · rw [toList_place]
      simp only [List.forall_mem_cons, List.forall_mem_append]
      exact ⟨hp, hnumber k, hsign, hwanted⟩
    · exact hwanted
  unfold numbered
  split_ifs
  · exact hlocated
  · rw [toList_suffix]
    simp only [List.forall_mem_cons, List.forall_mem_append]
    exact ⟨hlocated, hsign, hnumber n⟩

end Characters

end PortCodec.Bindings
