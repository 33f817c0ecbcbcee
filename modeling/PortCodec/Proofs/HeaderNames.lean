import PortCodec.Bindings.Header
import PortCodec.Proofs.ControlIdentifiers
import PortCodec.Proofs.NameWords
import PortCodec.Proofs.Utf8

/-! Which names of a C header are identifiers. The identifier of a port is protected from a digit in
front by an underscore, and the names of functions begin with it. The names of macros begin with its
words instead, and an underscore is no part of a word. -/

namespace PortCodec.Text.Utf8

variable {bs : Bytes}

/-- The bytes of ASCII stand for themselves. -/
theorem repaired_ascii (h : ∀ b ∈ bs, b < 128) : repaired bs = bs.asciiText := by
  unfold repaired Bytes.asciiText
  congr 1
  induction bs with
  | nil => rw [chars, scalars]; rfl
  | cons b bs ih =>
    have hrest := ih fun x hx => h x (by simp [hx])
    rw [chars] at hrest ⊢
    rw [scalars, if_pos (h b (by simp)), List.map_cons, List.map_cons, hrest]
    rfl

theorem lt_of_mem_asciiText (h : ∀ b ∈ bs, b < 128) : ∀ c ∈ bs.asciiText.toList, c.toNat < 128 := by
  intro c hc
  rw [Bytes.asciiText, String.toList_ofList] at hc
  obtain ⟨b, hb, rfl⟩ := List.mem_map.1 hc
  have hlt : b.toNat < 128 := UInt8.lt_iff_toNat_lt.1 (h b hb)
  have hvalid : b.toNat.isValidChar := .inl (by omega)
  rw [Char.ofNat, dif_pos hvalid]
  exact hlt

end PortCodec.Text.Utf8

namespace PortCodec.Text

open Computability

section Patterns

variable {c : Char} {w v : List Char}

def isNameStart (c : Char) : Bool := c.isAlpha || c == '_'

def isNameChar (c : Char) : Bool := c.isAlphanum || c == '_'

/-- `[A-Za-z_][A-Za-z0-9_]*` -/
def identifierTexts : Language Char := oneOf isNameStart * (oneOf isNameChar)∗

/-- Of the characters of names only digits cannot begin one. -/
theorem isNameStart_iff (h : isNameChar c = true) : isNameStart c = true ↔ c.isDigit = false := by
  have hdigit : c.isDigit = true → c.isAlpha = false ∧ c ≠ '_' := by
    intro hd
    have hc : c.toNat < 128 := lt_of_isSmall (by simp [isSmall, hd])
    exact of_ascii (P := fun c => c.isDigit = true → c.isAlpha = false ∧ c ≠ '_') (by decide) hc hd
  simp only [isNameStart, isNameChar, Char.isAlphanum, Bool.or_eq_true, beq_iff_eq] at h ⊢
  cases hd : c.isDigit with
  | true => simp [hdigit hd]
  | false => simpa [hd] using h

theorem cons_mem_identifierTexts :
    c :: w ∈ identifierTexts ↔ isNameStart c = true ∧ ∀ d ∈ w, isNameChar d = true := by
  constructor
  · rintro ⟨_, ⟨d, hd, rfl⟩, v, hv, h⟩
    obtain ⟨rfl, rfl⟩ := List.cons.inj h
    exact ⟨hd, mem_kstar_oneOf.1 hv⟩
  · rintro ⟨hc, hw⟩
    exact Language.append_mem_mul (a := [c]) ⟨c, hc, rfl⟩ (mem_kstar_oneOf.2 hw)

theorem nil_not_mem_identifierTexts : [] ∉ identifierTexts := by
  rintro ⟨_, ⟨c, -, rfl⟩, v, -, h⟩
  cases h

/-- A text of such characters is an identifier unless it is empty or a digit comes first. -/
theorem mem_identifierTexts_iff (h : ∀ c ∈ w, isNameChar c = true) :
    w ∈ identifierTexts ↔ ∃ c ∈ w.head?, c.isDigit = false := by
  cases w with
  | nil => simp [nil_not_mem_identifierTexts]
  | cons c w =>
    obtain ⟨hc, hw⟩ := List.forall_mem_cons.1 h
    rw [cons_mem_identifierTexts, and_iff_left hw, isNameStart_iff hc]
    simp

/-- What follows does not matter. -/
theorem append_mem_identifierTexts_iff (hne : w ≠ []) (hv : ∀ c ∈ v, isNameChar c = true) :
    w ++ v ∈ identifierTexts ↔ w ∈ identifierTexts := by
  obtain ⟨c, w, rfl⟩ := List.exists_cons_of_ne_nil hne
  rw [List.cons_append, cons_mem_identifierTexts, cons_mem_identifierTexts, List.forall_mem_append,
    and_iff_left hv]

end Patterns

end PortCodec.Text

namespace PortCodec.Bindings

open Layout Text

section Characters

variable {c : Char} {s : String}

def isSmallNameChar (c : Char) : Bool := isSmall c || c == '_'

theorem lt_of_isSmallNameChar (h : isSmallNameChar c = true) : c.toNat < 128 := by
  rw [isSmallNameChar, Bool.or_eq_true, beq_iff_eq] at h
  rcases h with h | rfl
  · exact lt_of_isSmall h
  · decide

theorem isNameChar_of_small (h : isSmallNameChar c = true) :
    isNameChar c = true ∧ isNameChar (Text.toUpper c) = true := by
  have hc := lt_of_isSmallNameChar h
  rw [Text.toUpper_ascii hc]
  exact Text.of_ascii
    (P := fun c => isSmallNameChar c = true → isNameChar c = true ∧ isNameChar c.toUpper = true)
    (by decide) hc h

theorem isSmallNameChar_of_mem_snakeCase (hs : ∀ c ∈ s.toList, c.toNat < 128) :
    ∀ c ∈ (snakeCase s).toList, isSmallNameChar c = true := by
  intro c hc
  rw [isSmallNameChar, Bool.or_eq_true, beq_iff_eq]
  rcases mem_snakeCase hc with rfl | ⟨d, hd, hword, rfl⟩
  · exact .inr rfl
  · exact .inl (isSmall_toLower (hs d hd) hword)

theorem isNameChar_of_mem_upperCase (hs : ∀ c ∈ s.toList, isSmallNameChar c = true) :
    ∀ c ∈ (Text.upperCase s).toList, isNameChar c = true := by
  intro c hc
  rw [Text.upperCase, String.toList_ofList] at hc
  obtain ⟨d, hd, rfl⟩ := List.mem_map.1 hc
  exact (isNameChar_of_small (hs d hd)).2

end Characters

section Beginnings

variable {s : String}

theorem head?_intercalate {sep : List Char} {ws : List (List Char)} (h : [] ∉ ws) :
    (sep.intercalate ws).head? = ws.flatten.head? := by
  cases ws with
  | nil => rfl
  | cons w ws =>
    obtain ⟨c, w, rfl⟩ := List.exists_cons_of_ne_nil fun hw : w = [] => h (by simp [hw])
    rw [List.intercalate_cons_cons_left]
    rfl

/-- In snake case a name begins with its first letter or digit. -/
theorem head?_snakeCase (s : String) :
    (snakeCase s).toList.head? = (s.toList.find? isWordChar).map Text.toLower := by
  have hflat : (smallWords s).flatten = (s.toList.filter isWordChar).map Text.toLower := by
    rw [smallWords, ← List.map_flatten, words, flatten_splitWords]
    rfl
  rw [toList_snakeCase, head?_intercalate (nil_not_mem_smallWords s), hflat, List.head?_map,
    List.head?_filter]

/-- The underscore of an identifier is lost when it is split into words. -/
theorem snakeCase_identifier (hs : ∀ c ∈ s.toList, c.toNat < 128) (h : snakeCase s ≠ "")
    (fallback : String) : snakeCase (identifier (snakeCase s) fallback) = snakeCase s := by
  have hwords : words ("_" ++ snakeCase s) = words (snakeCase s) := by
    rw [words, String.toList_append]
    exact splitWords_underscore [] (snakeCase s).toList
  unfold identifier
  split
  next hnil => exact absurd (String.toList_inj.1 hnil) h
  · split_ifs
    · rw [snakeCase, hwords]
      exact snakeCase_snakeCase hs
    · exact snakeCase_snakeCase hs

/-- An identifier does not begin with a digit. -/
theorem identifier_mem_identifierTexts {t fallback : String}
    (ht : ∀ c ∈ t.toList, isSmallNameChar c = true)
    (hf : fallback.toList ∈ identifierTexts) :
    (identifier t fallback).toList ∈ identifierTexts := by
  have hchars := fun c hc => (isNameChar_of_small (ht c hc)).1
  unfold identifier
  split
  · exact hf
  next c rest htext =>
    have hascii : c.toNat < 128 := lt_of_isSmallNameChar (ht c (by simp [htext]))
    split_ifs with hd
    · rw [String.toList_append, mem_identifierTexts_iff]
      · exact ⟨'_', rfl, rfl⟩
      · exact List.forall_mem_append.2 ⟨List.all_eq_true.1 rfl, hchars⟩
    · rw [mem_identifierTexts_iff hchars, htext]
      exact ⟨c, rfl, by rwa [Text.isDigit_ascii hascii, Bool.not_eq_true] at hd⟩

end Beginnings

namespace Header

/-- The names that a header gives to macros, the guard among them. -/
def macroNames (s : Summary) : List String :=
  guardName s :: (layoutMacros s ++ s.controls.flatMap (controlMacros s)).map (·.1)

def declaredNames (s : Summary) : List String := macroNames s ++ functionNames s

variable {s : Summary} {n : String}

/-- A macro is named by what begins all their names, and by more that cannot do harm. -/
theorem exists_of_mem_macroNames
    (hi : ∀ c ∈ s.controls, ∀ d ∈ c.identifier.toList, isSmallNameChar d = true)
    (h : n ∈ macroNames s) : ∃ rest : String, n = macroStart s ++ rest ∧
    ∀ d ∈ rest.toList, isNameChar d = true := by
  have hcontrol (c : NamedControl) (hc : c ∈ s.controls) (part : String)
      (hp : ∀ d ∈ part.toList, isNameChar d = true) :
      ∃ rest : String, s!"{macroStart s}_{Text.upperCase c.identifier}_{part}" =
        macroStart s ++ rest ∧
        ∀ d ∈ rest.toList, isNameChar d = true := by
    refine ⟨"_" ++ Text.upperCase c.identifier ++ "_" ++ part, ?_, ?_⟩
    · change macroStart s ++ "_" ++ Text.upperCase c.identifier ++ "_" ++ part = _
      simp only [String.append_assoc]
    · simp only [String.toList_append, List.forall_mem_append]
      have hline : ∀ d ∈ "_".toList, isNameChar d = true := List.all_eq_true.1 rfl
      exact ⟨⟨⟨hline, isNameChar_of_mem_upperCase (hi c hc)⟩, hline⟩, hp⟩
  rcases List.mem_cons.1 h with rfl | h
  · exact ⟨_, rfl, List.all_eq_true.1 rfl⟩
  obtain ⟨m, hm, rfl⟩ := List.mem_map.1 h
  rcases List.mem_append.1 hm with hm | hm
  · simp only [layoutMacros, List.mem_cons, List.not_mem_nil, or_false] at hm
    rcases hm with rfl | rfl | rfl | rfl <;> exact ⟨_, rfl, List.all_eq_true.1 rfl⟩
  · obtain ⟨c, hc, hm⟩ := List.mem_flatMap.1 hm
    unfold controlMacros at hm
    rcases List.mem_cons.1 hm with rfl | hm
    · exact hcontrol c hc _ (List.all_eq_true.1 rfl)
    · split_ifs at hm
      · rw [List.mem_singleton.1 hm]
        exact hcontrol c hc _ (List.all_eq_true.1 rfl)
      · simp only [List.mem_cons, List.not_mem_nil, or_false] at hm
        rcases hm with rfl | rfl <;> exact hcontrol c hc _ (List.all_eq_true.1 rfl)

section Texts

open Bytes

theorem infix_defineLines {ms : List (String × String)} {m : String × String} (h : m ∈ ms) :
    ofString ("#define " ++ m.1) <:+: ofString (defineLines ms) := by
  have hline : ofString ("#define " ++ m.1) <:+: ofString (defineLine m) := by
    refine (prefix_ofString (" " ++ m.2 ++ "\n") ?_).isInfix
    change "#define " ++ m.1 ++ " " ++ m.2 ++ "\n" = _
    simp only [String.append_assoc]
  rw [defineLines, ofString_join, List.flatMap_map]
  exact hline.trans (List.infix_of_mem_flatten (List.mem_map_of_mem h))

theorem infix_text_of_opening {bs : Bytes} (h : bs <:+: ofString (opening s)) : bs <:+: text s :=
  h.trans ((List.suffix_append _ _).isInfix.trans
    ((List.prefix_append _ _).isInfix.trans (List.prefix_append _ _).isInfix))

theorem infix_text_of_control {bs : Bytes} {c : NamedControl} (hc : c ∈ s.controls)
    (h : bs <:+: controlText s c) : bs <:+: text s :=
  h.trans ((List.infix_of_mem_flatten (List.mem_map_of_mem hc)).trans ⟨_, _, rfl⟩)

/-- The text of a header defines all its macros. -/
theorem infix_text_of_mem_macroNames (h : n ∈ macroNames s) :
    ofString ("#define " ++ n) <:+: text s := by
  rcases List.mem_cons.1 h with rfl | h
  · let front := s!"\" (layout {s.fingerprint})\n\n" ++ "#ifndef " ++ guardName s ++ "\n"
    let back := "\n\n" ++ "#include <stdint.h>\n\n" ++ defineLines (layoutMacros s)
    refine infix_text_of_opening (infix_ofString front back ?_)
    change s!"\" (layout {s.fingerprint})\n\n" ++
      ("#ifndef " ++ guardName s ++ ("\n" ++ "#define ") ++ guardName s ++ "\n\n") ++ _ ++ _ = _
    simp only [front, back, String.append_assoc]
  obtain ⟨m, hm, rfl⟩ := List.mem_map.1 h
  rcases List.mem_append.1 hm with hm | hm
  · refine infix_text_of_opening ((infix_defineLines hm).trans ?_)
    rw [opening, ofString_append]
    exact (List.suffix_append _ _).isInfix
  · obtain ⟨c, hc, hm⟩ := List.mem_flatMap.1 hm
    refine infix_text_of_control hc ((infix_defineLines hm).trans ?_)
    unfold controlText
    refine List.IsInfix.trans ?_ (List.suffix_append _ _).isInfix
    rw [ofString_append]
    exact (List.suffix_append _ _).isInfix

end Texts

section Ports

variable {p : Port}

/-- Where an identifier begins, as macros spell it. -/
theorem isDigit_toUpper_toLower {c : Char} (hc : c.toNat < 128) :
    (Text.toUpper (Text.toLower c)).isDigit = c.isDigit := by
  rw [Text.toUpper_toLower hc, Text.toUpper_ascii hc]
  exact Text.of_ascii (P := fun c => c.toUpper.isDigit = c.isDigit) (by decide) hc

variable (hp : ∀ b ∈ p.name, b < 128)
include hp

/-- The names of macros begin with the words of the port's name, if it has any. -/
theorem macroStart_eq : macroStart (summarize p (plan p)) =
    if snakeCase p.name.asciiText = "" then "PORT"
      else Text.upperCase (snakeCase p.name.asciiText) := by
  have hs := Text.Utf8.lt_of_mem_asciiText hp
  change (if upperSnakeCase (identifier (snakeCase (Text.Utf8.repaired p.name)) "port") = ""
    then "PORT"
    else upperSnakeCase (identifier (snakeCase (Text.Utf8.repaired p.name)) "port")) = _
  rw [Text.Utf8.repaired_ascii hp]
  by_cases h : snakeCase p.name.asciiText = ""
  · rw [if_pos h, h]
    decide
  · have hne : Text.upperCase (snakeCase p.name.asciiText) ≠ "" := by
      intro hnil
      have hlist := congrArg String.toList hnil
      rw [Text.upperCase, String.toList_ofList] at hlist
      exact h (String.toList_inj.1 (List.map_eq_nil_iff.1 hlist))
    rw [if_neg h, upperSnakeCase, snakeCase_identifier hs h, if_neg hne]

theorem isNameChar_of_mem_macroStart :
    ∀ c ∈ (macroStart (summarize p (plan p))).toList, isNameChar c = true := by
  rw [macroStart_eq hp]
  split_ifs
  · exact List.all_eq_true.1 rfl
  · exact isNameChar_of_mem_upperCase
      (isSmallNameChar_of_mem_snakeCase (Text.Utf8.lt_of_mem_asciiText hp))

/-- Only a digit at the front of the port's name can spoil the names of macros. -/
theorem macroStart_mem_identifierTexts_iff :
    (macroStart (summarize p (plan p))).toList ∈ identifierTexts ↔
    ∀ c ∈ p.name.asciiText.toList.find? Char.isAlphanum, c.isDigit = false := by
  have hs := Text.Utf8.lt_of_mem_asciiText hp
  have hfind :
      p.name.asciiText.toList.find? Char.isAlphanum = p.name.asciiText.toList.find? isWordChar := by
    rw [← List.head?_filter, ← List.head?_filter, List.filter_congr fun c hc =>
      isWordChar_ascii (hs c hc)]
  have hhead := head?_snakeCase p.name.asciiText
  rw [mem_identifierTexts_iff (isNameChar_of_mem_macroStart hp), hfind, macroStart_eq hp]
  cases hc : p.name.asciiText.toList.find? isWordChar with
  | none =>
    rw [hc, Option.map_none, List.head?_eq_none_iff] at hhead
    rw [if_pos (String.toList_inj.1 hhead)]
    simp only [Option.mem_def, reduceCtorEq, false_implies, implies_true, iff_true]
    exact ⟨'P', rfl, rfl⟩
  | some c =>
    have hascii := hs c (List.mem_of_find?_eq_some hc)
    rw [hc, Option.map_some] at hhead
    have hne : snakeCase p.name.asciiText ≠ "" := by
      intro h
      rw [h] at hhead
      cases hhead
    rw [if_neg hne, Text.upperCase, String.toList_ofList, List.head?_map, hhead]
    simp [isDigit_toUpper_toLower hascii]

end Ports

theorem macroStart_ne_nil (s : Summary) : (macroStart s).toList ≠ [] := by
  intro h
  have hempty := String.toList_inj.1 (h.trans String.toList_empty.symm)
  unfold macroStart at hempty
  dsimp only at hempty
  split_ifs at hempty with hupper
  · exact absurd hempty (by decide)
  · exact hupper hempty

theorem isSmallNameChar_of_mem_repaired {name : Bytes} (h : ∀ b ∈ name, b < 128) :
    ∀ d ∈ (snakeCase (Text.Utf8.repaired name)).toList, isSmallNameChar d = true := by
  rw [Text.Utf8.repaired_ascii h]
  exact isSmallNameChar_of_mem_snakeCase (Text.Utf8.lt_of_mem_asciiText h)

/-- Functions are named by the identifier of the port, which has its underscore. -/
theorem functionNames_identifiers {p : Port} (hp : ∀ b ∈ p.name, b < 128) :
    ∀ n ∈ functionNames (summarize p (plan p)), n.toList ∈ identifierTexts := by
  have hparts : ∀ part ∈ ["get_button", "set_button", "get_axis", "set_axis"],
      part.toList.all isNameChar = true := by
    decide
  have hport : "port".toList ∈ identifierTexts :=
    (mem_identifierTexts_iff (List.all_eq_true.1 rfl)).2 ⟨'p', rfl, rfl⟩
  have hown : (summarize p (plan p)).identifier.toList ∈ identifierTexts :=
    identifier_mem_identifierTexts (isSmallNameChar_of_mem_repaired hp) hport
  intro n hn
  obtain ⟨part, hpart, rfl⟩ := List.mem_map.1 hn
  change ((summarize p (plan p)).identifier ++ "_" ++ part).toList ∈ identifierTexts
  rw [String.toList_append, String.toList_append, List.append_assoc, append_mem_identifierTexts_iff]
  · exact hown
  · intro hnil
    exact nil_not_mem_identifierTexts (hnil ▸ hown)
  · exact List.forall_mem_append.2 ⟨List.all_eq_true.1 rfl, List.all_eq_true.1 (hparts part hpart)⟩

/-- For ASCII names, a header declares identifiers exactly when the first letter or digit of the
port's name is no digit. The functions have proper names in any case, and the macros are all
defined. -/
theorem declaredNames_identifiers_iff {p : Port} (hp : ∀ b ∈ p.name, b < 128)
    (hc : ∀ c ∈ p.controllers, ∀ x ∈ c.controls, ∀ b ∈ x.name, b < 128) :
    ((∀ n ∈ declaredNames (summarize p (plan p)), n.toList ∈ identifierTexts) ↔
      ∀ c ∈ p.name.asciiText.toList.find? Char.isAlphanum, c.isDigit = false) ∧
    (∀ n ∈ functionNames (summarize p (plan p)), n.toList ∈ identifierTexts) ∧
    ∀ n ∈ macroNames (summarize p (plan p)), Bytes.ofString ("#define " ++ n) <:+:
      text (summarize p (plan p)) := by
  have hdigit : ∀ d : Char, d.isDigit = true → isSmallNameChar d = true := by
    intro d hd
    simp [isSmallNameChar, isSmall, hd]
  have hcontrols :
      ∀ c ∈ (summarize p (plan p)).controls, ∀ d ∈ c.identifier.toList, isSmallNameChar d = true :=
    fun c hcontrol => forall_mem_identifiers hdigit rfl (List.all_eq_true.1 rfl) rfl
      (fun d hd x hx => isSmallNameChar_of_mem_repaired (hc d hd x hx))
        (List.mem_map_of_mem hcontrol)
  refine ⟨?_, functionNames_identifiers hp, fun n hn => infix_text_of_mem_macroNames hn⟩
  rw [← macroStart_mem_identifierTexts_iff hp]
  constructor
  · intro h
    have hguard := h _ (List.mem_append_left _ (List.mem_cons_self ..))
    rw [guardName, String.toList_append] at hguard
    exact (append_mem_identifierTexts_iff (macroStart_ne_nil _) (List.all_eq_true.1 rfl)).1 hguard
  · intro h n hn
    rcases List.mem_append.1 hn with hn | hn
    · obtain ⟨rest, rfl, hrest⟩ := exists_of_mem_macroNames hcontrols hn
      rw [String.toList_append]
      exact (append_mem_identifierTexts_iff (macroStart_ne_nil _) hrest).2 h
    · exact functionNames_identifiers hp n hn

/-- Two players of `HID pad`, with a control that is named by a number and one that has no name to
show. -/
def hidPads : Port where
  name := [72, 73, 68, 32, 112, 97, 100]
  humanName := []
  symbol := []
  controllers :=
    [⟨[], [], [.button [52] 65, .axis [33] .axis (-5) 5]⟩,
    ⟨[], [], [.button [52] 65, .button [52] 66]⟩]
  slots := [1]

theorem hidPads_identifiers : hidPads.validate = .ok () ∧ (∀ b ∈ hidPads.name, b < 128) ∧
    (∀ c ∈ hidPads.controllers, ∀ x ∈ c.controls, ∀ b ∈ x.name, b < 128) ∧
    "HID_PAD_P1__4_1_MASK" ∈ declaredNames (summarize hidPads (plan hidPads)) ∧
    ∀ n ∈ declaredNames (summarize hidPads (plan hidPads)), n.toList ∈ identifierTexts := by
  have hname : ∀ b ∈ hidPads.name, b < 128 := by simp [hidPads]
  have hcontrols : ∀ c ∈ hidPads.controllers, ∀ x ∈ c.controls, ∀ b ∈ x.name, b < 128 := by
    simp [hidPads, Control.button, Control.axis]
  refine ⟨rfl, hname, hcontrols, by decide +kernel,
    (declaredNames_identifiers_iff hname hcontrols).1.2 ?_⟩
  rintro c hc
  obtain rfl := Option.some.inj hc
  rfl

def numberNamed : Port where
  name := [52]
  humanName := [52]
  symbol := [52]
  controllers := [⟨[], [], [.button [97] 65]⟩]
  slots := [1]

/-- Its header defines `4_LAYOUT_H`, although the functions in it begin with `_4`. -/
theorem not_declaredNames_identifiers :
    numberNamed.validate = .ok () ∧ (∀ b ∈ numberNamed.name, b < 128) ∧
    (∀ c ∈ numberNamed.controllers, ∀ x ∈ c.controls, ∀ b ∈ x.name, b < 128) ∧
    Bytes.ofString "#define 4_LAYOUT_H" <:+: text (summarize numberNamed (plan numberNamed)) ∧
    ¬ ∀ n ∈ declaredNames (summarize numberNamed (plan numberNamed)), n.toList ∈
      identifierTexts := by
  have hguard : guardName (summarize numberNamed (plan numberNamed)) = "4_LAYOUT_H" := by
    decide +kernel
  have hmacro : "4_LAYOUT_H" ∈ macroNames (summarize numberNamed (plan numberNamed)) :=
    hguard ▸ List.mem_cons_self ..
  refine ⟨rfl, by simp [numberNamed], by simp [numberNamed, Control.button],
    infix_text_of_mem_macroNames hmacro, fun h => ?_⟩
  obtain ⟨c, hc, hd⟩ :=
    (mem_identifierTexts_iff (List.all_eq_true.1 rfl)).1 (h _ (List.mem_append_left _ hmacro))
  obtain rfl := Option.some.inj hc
  cases hd

end Header

end PortCodec.Bindings
