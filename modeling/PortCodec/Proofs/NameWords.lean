import Mathlib.Computability.Language
import Mathlib.Tactic
import PortCodec.Bindings.Name

/-! The words of a name. Splitting drops nothing but the signs between words, and what is put
together again in lower case is split at the same places: there are no capitals left that could part
a word. So all ways of writing a name agree on its words. -/

namespace PortCodec.Text

open Computability

variable {c : Char}

/-- What holds of the first 128 characters holds of all that are ASCII. -/
theorem of_ascii {P : Char → Prop} (h : ∀ n < 128, P (Char.ofNat n))
    (hc : c.toNat < 128) : P c := by
  have hown := h c.toNat hc
  rwa [Char.ofNat_toNat] at hown

theorem isDigit_ascii (hc : c.toNat < 128) : isDigit c = c.isDigit := if_pos hc

theorem toLower_ascii (hc : c.toNat < 128) : toLower c = c.toLower := if_pos hc

theorem toUpper_ascii (hc : c.toNat < 128) : toUpper c = c.toUpper := if_pos hc

theorem toLower_lt (hc : c.toNat < 128) : (toLower c).toNat < 128 := by
  rw [toLower_ascii hc]
  exact of_ascii (P := fun c => c.toLower.toNat < 128) (by decide) hc

theorem toLower_toLower (hc : c.toNat < 128) : toLower (toLower c) = toLower c := by
  rw [toLower_ascii (toLower_lt hc), toLower_ascii hc]
  exact of_ascii (P := fun c => c.toLower.toLower = c.toLower) (by decide) hc

theorem toUpper_toLower (hc : c.toNat < 128) : toUpper (toLower c) = toUpper c := by
  rw [toUpper_ascii (toLower_lt hc), toUpper_ascii hc, toLower_ascii hc]
  exact of_ascii (P := fun c => c.toLower.toUpper = c.toUpper) (by decide) hc

def isSmall (c : Char) : Bool := c.isLower || c.isDigit

theorem lt_of_isSmall (h : isSmall c = true) : c.toNat < 128 := by
  change (c.val ≥ 'a'.val && c.val ≤ 'z'.val || c.val ≥ '0'.val && c.val ≤ '9'.val) = true at h
  simp only [Bool.or_eq_true, Bool.and_eq_true, decide_eq_true_eq, UInt32.le_iff_toNat_le] at h
  have : c.toNat = c.val.toNat := rfl
  have : 'z'.val.toNat = 122 := rfl
  have : '9'.val.toNat = 57 := rfl
  omega

section Patterns

variable {q : Char → Bool} {w : List Char}

def oneOf (q : Char → Bool) : Language Char := {w | ∃ c, q c = true ∧ w = [c]}

def someOf (q : Char → Bool) : Language Char := oneOf q * (oneOf q)∗

/-- `[a-z0-9]+(_[a-z0-9]+)*` -/
def snakeTexts : Language Char := someOf isSmall * (({['_']} : Language Char) * someOf isSmall)∗

theorem mem_kstar_oneOf : w ∈ (oneOf q)∗ ↔ ∀ c ∈ w, q c = true := by
  constructor
  · rintro ⟨ws, rfl, hws⟩ c hc
    obtain ⟨v, hv, hc⟩ := List.mem_flatten.1 hc
    obtain ⟨d, hd, rfl⟩ := hws v hv
    rwa [List.mem_singleton.1 hc]
  · intro h
    refine ⟨w.map fun c => [c], by simp [← List.flatMap_def], fun v hv => ?_⟩
    obtain ⟨c, hc, rfl⟩ := List.mem_map.1 hv
    exact ⟨c, h c hc, rfl⟩

theorem mem_someOf (hne : w ≠ []) (h : ∀ c ∈ w, q c = true) : w ∈ someOf q := by
  obtain ⟨c, w, rfl⟩ := List.exists_cons_of_ne_nil hne
  exact Language.append_mem_mul (a := [c]) ⟨c, h c (by simp), rfl⟩
    (mem_kstar_oneOf.2 fun x hx => h x (by simp [hx]))

theorem intercalate_mem_snakeTexts {ws : List (List Char)} (hne : ws ≠ [])
    (hw : ∀ w ∈ ws, w ∈ someOf isSmall) :
    ['_'].intercalate ws ∈ snakeTexts := by
  obtain ⟨w, ws, rfl⟩ := List.exists_cons_of_ne_nil hne
  have hsplit : ['_'].intercalate (w :: ws) = w ++ (ws.map (['_'] ++ ·)).flatten := by
    clear hne hw
    induction ws generalizing w with
    | nil => simp
    | cons v ws ih => rw [List.intercalate_cons_cons, ih]; simp
  rw [hsplit]
  refine Language.append_mem_mul (hw w (by simp)) (Language.join_mem_kstar fun v hv => ?_)
  obtain ⟨u, hu, rfl⟩ := List.mem_map.1 hv
  exact Language.append_mem_mul rfl (hw u (by simp [hu]))

end Patterns

end PortCodec.Text

namespace PortCodec.Bindings

open Text (isSmall lt_of_isSmall snakeTexts)

section Characters

variable {c : Char}

theorem isWordChar_ascii (hc : c.toNat < 128) : isWordChar c = c.isAlphanum := by
  rw [isWordChar, Text.isLetter, Text.isDigit, if_pos hc, if_pos hc]
  rfl

theorem isSmall_toLower (hc : c.toNat < 128) (h : isWordChar c = true) :
    isSmall (Text.toLower c) = true := by
  rw [isWordChar_ascii hc] at h
  rw [Text.toLower_ascii hc]
  exact Text.of_ascii (P := fun c => c.isAlphanum = true → isSmall c.toLower = true)
    (by decide) hc h

/-- Small letters and digits are parts of words and begin none. -/
theorem isSmall_joins (h : isSmall c = true) : isWordChar c = true ∧ Text.isUpper c = false := by
  have hc := lt_of_isSmall h
  rw [isWordChar_ascii hc, Text.isUpper, if_pos hc]
  exact Text.of_ascii (P := fun c => isSmall c = true → c.isAlphanum = true ∧ c.isUpper = false)
    (by decide) hc h

end Characters

section Splitting

variable {reversed cs w : List Char} {rest : List (List Char)}

theorem flatten_closeWord (reversed : List Char) (rest : List (List Char)) :
    (closeWord reversed rest).flatten = reversed.reverse ++ rest.flatten := by
  cases reversed <;> simp [closeWord]

/-- The words of a text hold its letters and digits, in their order. -/
theorem flatten_splitWords (reversed cs : List Char) :
    (splitWords reversed cs).flatten = reversed.reverse ++ cs.filter isWordChar := by
  fun_induction splitWords reversed cs with
  | case1 reversed => rw [flatten_closeWord]; rfl
  | case2 reversed c rest hword ih =>
    rw [flatten_closeWord, ih, List.filter_cons_of_neg (by simpa using hword)]
    rfl
  | case3 reversed c rest hword _ ih =>
    rw [flatten_closeWord, ih, List.filter_cons_of_pos (by simpa using hword)]
    rfl
  | case4 reversed c rest hword _ ih =>
    rw [ih, List.filter_cons_of_pos (by simpa using hword), List.reverse_cons, List.append_assoc]
    rfl

theorem nil_not_mem_closeWord (h : [] ∉ rest) : [] ∉ closeWord reversed rest := by
  cases reversed <;> simp [closeWord, h]

theorem nil_not_mem_splitWords (reversed cs : List Char) : [] ∉ splitWords reversed cs := by
  fun_induction splitWords reversed cs with
  | case1 reversed => exact nil_not_mem_closeWord (by simp)
  | case2 reversed c rest _ ih | case3 reversed c rest _ _ ih => exact nil_not_mem_closeWord ih
  | case4 reversed c rest _ _ ih => exact ih

theorem infix_closeWord (hrest : ∀ w ∈ rest, w <:+: cs) (hw : w ∈ closeWord reversed rest) :
    w <:+: reversed.reverse ++ cs := by
  unfold closeWord at hw
  split_ifs at hw
  · exact (hrest w hw).trans (List.suffix_append _ _).isInfix
  · rcases List.mem_cons.1 hw with rfl | hw
    · exact (List.prefix_append _ _).isInfix
    · exact (hrest w hw).trans (List.suffix_append _ _).isInfix

/-- Every word is a stretch of the text. -/
theorem infix_splitWords (reversed cs : List Char) :
    ∀ w ∈ splitWords reversed cs, w <:+: reversed.reverse ++ cs := by
  fun_induction splitWords reversed cs with
  | case1 reversed => exact fun w hw => infix_closeWord (by simp) hw
  | case2 reversed c rest _ ih =>
    exact fun w hw =>
      infix_closeWord (fun v hv => (ih v hv).trans (List.suffix_cons c rest).isInfix) hw
  | case3 reversed c rest _ _ ih => exact fun w hw => infix_closeWord ih hw
  | case4 reversed c rest _ _ ih => simpa using ih

/-- What begins no word goes on with the one that was begun. -/
theorem splitWords_append (hw : ∀ c ∈ w, isSmall c = true) :
    splitWords reversed (w ++ cs) = splitWords (w.reverse ++ reversed) cs := by
  induction w generalizing reversed with
  | nil => rfl
  | cons c w ih =>
    obtain ⟨hword, hupper⟩ := isSmall_joins (hw c (by simp))
    have hstep : splitWords reversed (c :: (w ++ cs)) = splitWords (c :: reversed) (w ++ cs) := by
      rw [splitWords]
      simp [hword, hupper]
    rw [List.cons_append, hstep, ih fun x hx => hw x (by simp [hx]), List.reverse_cons,
      List.append_assoc]
    rfl

theorem splitWords_underscore (reversed cs : List Char) :
    splitWords reversed ('_' :: cs) = closeWord reversed (splitWords [] cs) := by
  rw [splitWords, if_pos (by rw [isWordChar_ascii (by decide)]; rfl)]

/-- Words of small letters are found again behind underscores. -/
theorem splitWords_intercalate {ws : List (List Char)} (hne : [] ∉ ws)
    (hw : ∀ w ∈ ws, ∀ c ∈ w, isSmall c = true) : splitWords [] (['_'].intercalate ws) = ws := by
  have hclose {w : List Char} {more : List (List Char)} (h : w ≠ []) :
      closeWord w.reverse more = w :: more := by
    simp [closeWord, h]
  induction ws with
  | nil => rfl
  | cons w ws ih =>
    have hown : w ≠ [] := fun h => hne (by simp [h])
    have hsmall := hw w (by simp)
    cases ws with
    | nil =>
      have := @splitWords_append [] [] w hsmall
      simpa [splitWords, hclose hown] using this
    | cons v ws =>
      rw [List.intercalate_cons_cons, List.append_assoc, splitWords_append hsmall, List.append_nil,
        List.singleton_append, splitWords_underscore, hclose hown,
        ih (fun h => hne (by simp [h])) fun x hx => hw x (by simp [hx])]

end Splitting

section Names

variable {s : String}

def smallWords (s : String) : List (List Char) := (words s).map (·.map Text.toLower)

theorem toList_snakeCase (s : String) :
    (snakeCase s).toList = ['_'].intercalate (smallWords s) := by
  rw [snakeCase, String.toList_intercalate, List.map_map, smallWords]
  congr 1
  exact List.map_congr_left fun w _ => String.toList_ofList

theorem mem_of_mem_intercalate {c : Char} {sep : List Char} {ws : List (List Char)}
    (h : c ∈ sep.intercalate ws) : c ∈ sep ∨ ∃ w ∈ ws, c ∈ w := by
  rw [List.intercalate] at h
  obtain ⟨v, hv, hc⟩ := List.mem_flatten.1 h
  have hmem : v = sep ∨ v ∈ ws := by
    clear h hc
    fun_induction List.intersperse sep ws with grind
  rcases hmem with rfl | hv
  · exact .inl hc
  · exact .inr ⟨v, hv, hc⟩

theorem nil_not_mem_smallWords (s : String) : [] ∉ smallWords s := by
  intro h
  obtain ⟨w, hw, hnil⟩ := List.mem_map.1 h
  obtain rfl := List.map_eq_nil_iff.1 hnil
  exact nil_not_mem_splitWords [] s.toList hw

/-- What is in a word is in the name, and it is a letter or a digit. -/
theorem mem_of_mem_words {w : List Char} (hw : w ∈ words s) {c : Char} (hc : c ∈ w) :
    c ∈ s.toList ∧ isWordChar c = true := by
  have hmem : c ∈ (words s).flatten := List.mem_flatten.2 ⟨w, hw, hc⟩
  rw [words, flatten_splitWords] at hmem
  exact List.mem_filter.1 hmem

/-- In snake case a name is made of its letters and digits and of underscores. -/
theorem mem_snakeCase {c : Char} (h : c ∈ (snakeCase s).toList) :
    c = '_' ∨ ∃ d ∈ s.toList, isWordChar d = true ∧ c = Text.toLower d := by
  rw [toList_snakeCase] at h
  rcases mem_of_mem_intercalate h with h | ⟨w, hw, h⟩
  · exact .inl (List.mem_singleton.1 h)
  · obtain ⟨v, hv, rfl⟩ := List.mem_map.1 hw
    obtain ⟨d, hd, rfl⟩ := List.mem_map.1 h
    obtain ⟨hin, hword⟩ := mem_of_mem_words hv hd
    exact .inr ⟨d, hin, hword, rfl⟩

section Ascii

variable (hs : ∀ c ∈ s.toList, c.toNat < 128)
include hs

theorem isSmall_of_mem_smallWords : ∀ w ∈ smallWords s, ∀ c ∈ w, isSmall c = true := by
  intro w hw c hc
  obtain ⟨v, hv, rfl⟩ := List.mem_map.1 hw
  obtain ⟨d, hd, rfl⟩ := List.mem_map.1 hc
  obtain ⟨hin, hword⟩ := mem_of_mem_words hv hd
  exact isSmall_toLower (hs d hin) hword

theorem words_snakeCase : words (snakeCase s) = smallWords s := by
  rw [words, toList_snakeCase]
  exact splitWords_intercalate (nil_not_mem_smallWords s) (isSmall_of_mem_smallWords hs)

theorem smallWords_snakeCase : smallWords (snakeCase s) = smallWords s := by
  rw [smallWords, words_snakeCase hs, smallWords, List.map_map]
  refine List.map_congr_left fun w hw => ?_
  rw [Function.comp_apply, List.map_map]
  exact List.map_congr_left fun c hc => Text.toLower_toLower (hs c (mem_of_mem_words hw hc).1)

theorem snakeCase_snakeCase : snakeCase (snakeCase s) = snakeCase s := by
  rw [← String.toList_inj, toList_snakeCase, toList_snakeCase, smallWords_snakeCase hs]

/-- A capitalized word does not show how it was written. -/
theorem capitalized_map_toLower {w : List Char} (hw : w ∈ words s) :
    capitalized (w.map Text.toLower) = capitalized w := by
  have hascii : ∀ c ∈ w, c.toNat < 128 := fun c hc => hs c (mem_of_mem_words hw hc).1
  cases w with
  | nil => rfl
  | cons c w =>
    rw [List.map_cons, capitalized, capitalized,
      Text.toUpper_toLower (hascii c (by simp)), List.map_map]
    refine congrArg _ (List.map_congr_left fun d hd => ?_)
    exact Text.toLower_toLower (hascii d (by simp [hd]))

theorem pascalCase_snakeCase : pascalCase (snakeCase s) = pascalCase s := by
  rw [pascalCase, pascalCase, words_snakeCase hs, smallWords, List.flatMap_map]
  exact congrArg _ (List.flatMap_congr fun w hw => capitalized_map_toLower hs hw)

theorem snakeCase_mem_snakeTexts (h : snakeCase s ≠ "") : (snakeCase s).toList ∈ snakeTexts := by
  have hne : smallWords s ≠ [] := by
    intro hnil
    refine h (String.toList_inj.1 ?_)
    rw [toList_snakeCase, hnil]
    rfl
  rw [toList_snakeCase]
  refine Text.intercalate_mem_snakeTexts hne fun w hw =>
    Text.mem_someOf ?_ (isSmall_of_mem_smallWords hs w hw)
  rintro rfl
  exact nil_not_mem_smallWords s hw

end Ascii

/-- The words of an ASCII name are stretches of letters and digits that leave none of them out. In
snake case they are joined by single underscores, and they stay what they are: writing a name in
snake case once more, or going from there to Pascal case, changes nothing. -/
theorem words_of_ascii (hs : ∀ c ∈ s.toList, c.toNat < 128) :
    (∀ w ∈ words s, w ≠ [] ∧ w <:+: s.toList ∧ ∀ c ∈ w, c.isAlphanum = true) ∧
    (words s).flatten = s.toList.filter Char.isAlphanum ∧
    (snakeCase s = "" ∨ (snakeCase s).toList ∈ snakeTexts) ∧
    snakeCase (snakeCase s) = snakeCase s ∧
    pascalCase (snakeCase s) = pascalCase s := by
  refine ⟨fun w hw => ⟨?_, infix_splitWords [] s.toList w hw, fun c hc => ?_⟩, ?_, ?_,
    snakeCase_snakeCase hs, pascalCase_snakeCase hs⟩
  · rintro rfl
    exact nil_not_mem_splitWords [] s.toList hw
  · obtain ⟨hin, hword⟩ := mem_of_mem_words hw hc
    rwa [← isWordChar_ascii (hs c hin)]
  · rw [words, flatten_splitWords, List.reverse_nil, List.nil_append]
    exact List.filter_congr fun c hc => isWordChar_ascii (hs c hc)
  · exact or_iff_not_imp_left.2 (snakeCase_mem_snakeTexts hs)

/-- Capitals, a digit and signs: the last capital of a row belongs to the next word. -/
theorem hidReport_words :
    let s := "HIDReport 4x--Y"
    (∀ c ∈ s.toList, c.toNat < 128) ∧
      words s = [['H', 'I', 'D'], ['R', 'e', 'p', 'o', 'r', 't'], ['4', 'x'], ['Y']] ∧
      snakeCase s = "hid_report_4x_y" ∧ snakeCase (snakeCase s) = snakeCase s ∧
      pascalCase (snakeCase s) = pascalCase s := by
  intro s
  have hs : ∀ c ∈ s.toList, c.toNat < 128 := by
    have hall : (s.toList.all fun c => c.toNat < 128) = true := by decide
    simpa using hall
  obtain ⟨-, -, -, hsnake, hpascal⟩ := words_of_ascii hs
  exact ⟨hs, by decide +kernel, by decide +kernel, hsnake, hpascal⟩

end Names

end PortCodec.Bindings
