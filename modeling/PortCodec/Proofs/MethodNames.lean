import PortCodec.Bindings.RustModule
import PortCodec.Proofs.ControlIdentifiers
import PortCodec.Proofs.FieldReading
import PortCodec.Proofs.NameWords
import PortCodec.Proofs.Utf8

/-! When the methods of a generated type have names of their own. Getters and setters share one
scope. Keywords do not disturb it, since no identifier has a `#`, but a control may be named like
the setter of another. -/

namespace PortCodec.Text

theorem shiftBy_ne_hash {c : Char} (hc : c ≠ '#') : shiftBy lowerShifts c ≠ '#' := by
  unfold shiftBy
  split
  · next r hr =>
    -- no row sends anything as far down as the signs of ASCII
    have htarget : ∀ r ∈ lowerShifts, 64 ≤ r.2.2.2 := by decide +kernel
    have hlow := htarget r (List.mem_of_find?_eq_some hr)
    intro h
    have hnat := congrArg Char.toNat h
    unfold Char.ofNat at hnat
    by_cases hvalid : (r.2.2.2 + (c.toNat - r.1)).isValidChar
    · rw [dif_pos hvalid] at hnat
      have : r.2.2.2 + (c.toNat - r.1) = 35 := hnat
      omega
    · rw [dif_neg hvalid] at hnat
      exact absurd hnat (by decide)
  · exact hc

theorem toLower_ne_hash {c : Char} (hc : c ≠ '#') : toLower c ≠ '#' := by
  unfold toLower
  split_ifs with hascii
  · have hall : ∀ n < 128, Char.ofNat n ≠ '#' → (Char.ofNat n).toLower ≠ '#' := by decide
    have hown := hall c.toNat hascii
    rw [Char.ofNat_toNat] at hown
    exact hown hc
  · exact shiftBy_ne_hash hc

end PortCodec.Text

namespace PortCodec.Bindings

open Layout

section Signs

theorem hash_not_mem_snakeCase (s : String) : '#' ∉ (snakeCase s).toList := by
  intro h
  rcases mem_snakeCase h with h | ⟨c, -, hword, h⟩
  · exact absurd h (by decide)
  · refine Text.toLower_ne_hash ?_ h.symm
    rintro rfl
    rw [isWordChar_ascii (by decide)] at hword
    exact absurd hword (by decide)

theorem hash_not_mem_identifiers {p : Port} {s : String}
    (h : s ∈ (summarize p (plan p)).controls.map (·.identifier)) : '#' ∉ s.toList := by
  have hdigit : ∀ d : Char, d.isDigit = true → d ≠ '#' := by
    rintro d hd rfl
    exact absurd hd (by decide)
  have hname (x : Control) : ∀ d ∈ (snakeCase (Text.Utf8.repaired x.name)).toList, d ≠ '#' := by
    rintro d hd rfl
    exact hash_not_mem_snakeCase _ hd
  have hfallback : ∀ d ∈ "control".toList, d ≠ '#' := by
    rintro d hd rfl
    exact absurd hd (by decide)
  intro hmem
  exact forall_mem_identifiers hdigit (by decide) hfallback (by decide) (fun _ _ x _ => hname x) h
    '#' hmem rfl

/-- With several controllers each identifier starts with its controller. -/
theorem head_identifiers {p : Port} (hp : 1 < p.controllers.length) {s : String}
    (h : s ∈ (summarize p (plan p)).controls.map (·.identifier)) : s.toList.head? = some 'p' := by
  obtain ⟨c, -, k, own, -, n, rfl⟩ := mem_identifiers h
  unfold numbered located
  rw [if_pos hp]
  split_ifs
  · rw [toList_place]; rfl
  · rw [toList_suffix, toList_place]; rfl

end Signs

namespace RustModule

/-- The names of the methods: a getter and a setter for each control. -/
def methodNames (s : Summary) : List String :=
  s.controls.flatMap fun c => [getterName c.identifier, setterName c.identifier]

section Texts

open Bytes

variable {s : Summary} {c : NamedControl} {n : String}

theorem infix_methodText (name signature body : String) :
    ofString ("    pub fn " ++ name ++ "(") <:+: ofString (methodText name signature body) := by
  -- of any texts, since literals are slow to compare
  have hparts (a b c d e f g : String) : a ++ b ++ c ++ d ++ e ++ f ++ g =
      a ++ b ++ c ++ (d ++ e ++ f ++ g) := by
    simp only [String.append_assoc]
  exact (prefix_ofString _ (hparts ..)).isInfix

theorem infix_controlText (h : n = getterName c.identifier ∨ n = setterName c.identifier) :
    ofString ("    pub fn " ++ n ++ "(") <:+: controlText c := by
  -- both kinds of controls have the text of the getter, an empty line and the text of the setter
  have hparts {signature signature' body body' : String} :
      ofString ("    pub fn " ++ n ++ "(") <:+:
        ofString (methodText (getterName c.identifier) signature body ++ "\n" ++
          methodText (setterName c.identifier) signature' body') := by
    rcases h with rfl | rfl
    · refine (infix_methodText _ signature body).trans ?_
      rw [ofString_append, ofString_append]
      exact (List.prefix_append _ _).isInfix.trans (List.prefix_append _ _).isInfix
    · refine (infix_methodText _ signature' body').trans ?_
      rw [ofString_append]
      exact (List.suffix_append _ _).isInfix
  refine List.IsInfix.trans ?_ (List.suffix_append _ _).isInfix
  split_ifs
  · exact hparts
  · exact hparts

/-- The text of a module has all its methods. -/
theorem infix_text_of_mem_methodNames (h : n ∈ methodNames s) :
    ofString ("    pub fn " ++ n ++ "(") <:+: text s := by
  obtain ⟨c, hc, hn⟩ := List.mem_flatMap.1 h
  refine (infix_controlText (by simpa using hn)).trans ?_
  exact (List.infix_of_mem_flatten (List.mem_map_of_mem hc)).trans ⟨_, _, rfl⟩

end Texts

theorem getterName_inj {a b : String} (ha : '#' ∉ a.toList) (hb : '#' ∉ b.toList)
    (h : getterName a = getterName b) : a = b := by
  have hraw (s : String) : '#' ∈ ("r#" ++ s).toList := by
    rw [String.toList_append]
    exact List.mem_append_left _ (by decide)
  unfold getterName at h
  split_ifs at h
  · exact String.append_right_inj _ |>.1 h
  · exact absurd (h ▸ hraw a) hb
  · exact absurd (h ▸ hraw b) ha
  · exact h

theorem setterName_not_keyword (s : String) : setterName s ∉ keywords := by
  have hnone : ∀ k ∈ keywords, ¬ ['s', 'e', 't', '_'] <+: k.toList := by decide
  intro h
  exact hnone _ h (by rw [setterName, String.toList_append]; exact List.prefix_append _ _)

/-- Only a control named like a setter has its getter in the way. -/
theorem getterName_eq_setterName {a b : String} :
    getterName a = setterName b ↔ a = setterName b := by
  unfold getterName
  split_ifs with ha
  · constructor
    · intro h
      have hlist := congrArg String.toList h
      rw [setterName, String.toList_append, String.toList_append] at hlist
      exact absurd (List.cons.inj hlist).1 (by decide)
    · rintro rfl
      exact absurd (List.contains_iff_mem.1 ha) (setterName_not_keyword b)
  · rfl

theorem nodup_methodNames {s : Summary} (hd : (s.controls.map (·.identifier)).Nodup)
    (hs : ∀ i ∈ s.controls.map (·.identifier), '#' ∉ i.toList) :
    (methodNames s).Nodup ↔
      ∀ a ∈ s.controls, ∀ b ∈ s.controls, a.identifier ≠ setterName b.identifier := by
  have hgetters : ((s.controls.map (·.identifier)).map getterName).Nodup :=
    hd.map_on fun a ha b hb h => getterName_inj (hs a ha) (hs b hb) h
  have hsetters : ((s.controls.map (·.identifier)).map setterName).Nodup :=
    hd.map_on fun a _ b _ h => (String.append_right_inj _).1 h
  have hflat : methodNames s =
      (s.controls.map (·.identifier)).flatMap fun i => [getterName i] ++ [setterName i] := by
    rw [List.flatMap_map]
    rfl
  rw [hflat, ← (List.flatMap_append_perm _ _ _).nodup_iff, ← List.map_eq_flatMap,
    ← List.map_eq_flatMap, List.nodup_append, and_iff_right hgetters, and_iff_right hsetters]
  simp only [List.forall_mem_map, ne_eq, getterName_eq_setterName]

/-- Controls with identifiers of their own have methods of their own exactly when none is named like
the setter of another. With several controllers that cannot happen. The text has all the methods. -/
theorem nodup_methodNames_iff {p : Port}
    (hd : ((summarize p (plan p)).controls.map (·.identifier)).Nodup) :
    ((methodNames (summarize p (plan p))).Nodup ↔
      ∀ a ∈ (summarize p (plan p)).controls, ∀ b ∈ (summarize p (plan p)).controls,
        a.identifier ≠ setterName b.identifier) ∧
    (1 < p.controllers.length → (methodNames (summarize p (plan p))).Nodup) ∧
    ∀ n ∈ methodNames (summarize p (plan p)),
      Bytes.ofString ("    pub fn " ++ n ++ "(") <:+: text (summarize p (plan p)) := by
  have hiff := nodup_methodNames hd fun _ h => hash_not_mem_identifiers h
  refine ⟨hiff, fun hp => hiff.2 fun a ha b _ hab => ?_,
    fun n hn => infix_text_of_mem_methodNames hn⟩
  have hhead := head_identifiers hp (List.mem_map_of_mem ha)
  rw [hab, setterName, String.toList_append] at hhead
  exact absurd (Option.some.inj hhead) (by decide)

theorem twoPads_methods : ((summarize twoPads (plan twoPads)).controls.map (·.identifier)).Nodup ∧
    (methodNames (summarize twoPads (plan twoPads))).Nodup := by
  have h : ((summarize twoPads (plan twoPads)).controls.map (·.identifier)).Nodup := by
    decide +kernel
  exact ⟨h, (nodup_methodNames_iff h).2.1 (by decide)⟩

def setterNamed : Port where
  name := [112]
  humanName := [112]
  symbol := [112]
  controllers := [⟨[], [], [.button [97] 65, .button [115, 101, 116, 95, 97] 66]⟩]
  slots := [1]

/-- The setter of the one and the getter of the other are both `set_a`. -/
theorem not_nodup_methodNames : setterNamed.validate = .ok () ∧
    ((summarize setterNamed (plan setterNamed)).controls.map (·.identifier)).Nodup ∧
    ¬ (methodNames (summarize setterNamed (plan setterNamed))).Nodup := by
  have h : methodNames (summarize setterNamed (plan setterNamed)) =
      ["a", "set_a", "set_a", "set_set_a"] := by decide +kernel
  exact ⟨rfl, by decide +kernel, by rw [h]; decide⟩

end RustModule

end PortCodec.Bindings
