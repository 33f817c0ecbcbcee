import PortCodec.Proofs.AxisText
import PortCodec.Proofs.CanonicalState

/-! A line is a row of fields. Reading it with one cursor gives the same state and the same count
as cutting it at its separators and reading each controller from a field of its own, so a short,
long or damaged field never shifts the controls of another controller. -/

namespace PortCodec

namespace Line
open Bytes Decimal

/-- A line without its end and what follows. -/
def lineBody (text : Bytes) : Bytes := text.takeWhile fun b => !isLineEnd b

def fields (text : Bytes) : List Bytes := (lineBody text).splitOn 124

def fieldStart (fs : List Bytes) (i : ℕ) : ℕ := ((fs.take i).map (·.length + 1)).sum

/-- The value of a control at the head of a field, and what is left of the field. -/
def readControl (field : Bytes) (c : Control) : Int16 × Bytes :=
  if c.kind = .button then
    match field with
    | [] => (0, [])
    | b :: rest => (if b = 46 ∨ b = 32 then 0 else 1, rest)
  else if c.kind.isAxis then axisOf field
  else (0, field)

def readField (field : Bytes) : List Control → List Int16 × Bytes
  | [] => ([], field)
  | c :: cs =>
    ((readControl field c).1 :: (readField (readControl field c).2 cs).1,
      (readField (readControl field c).2 cs).2)

/-- A text that is empty or starts with the end of a field. -/
def Ended (u : Bytes) : Prop := ∀ b ∈ u.head?, isFieldEnd b = true

def Plain (f : Bytes) : Prop := ∀ b ∈ f, isFieldEnd b = false

theorem isFieldEnd_iff (b : UInt8) : isFieldEnd b = true ↔ b = 124 ∨ isLineEnd b = true := by
  simp [isFieldEnd, isLineEnd, or_assoc]

theorem Plain.of_suffix {f g : Bytes} (h : Plain f) (hg : g <:+ f) : Plain g :=
  fun b hb => h b (hg.subset hb)

theorem Plain.not_lineEnd {f : Bytes} (h : Plain f) : ∀ b ∈ f, (!isLineEnd b) = true := by
  intro b hb
  by_contra hc
  have := (isFieldEnd_iff b).2 (Or.inr (by simpa using hc))
  simp [h b hb] at this

theorem Plain.separator_notMem {f : Bytes} (h : Plain f) : (124 : UInt8) ∉ f :=
  fun hm => by simpa [isFieldEnd] using h _ hm

/-- Every text is a field and what comes behind it. -/
theorem exists_field (text : Bytes) : ∃ f u, text = f ++ u ∧ Plain f ∧ Ended u := by
  induction text with
  | nil => exact ⟨[], [], rfl, by simp [Plain], by simp [Ended]⟩
  | cons b rest ih =>
    cases hb : isFieldEnd b
    · obtain ⟨f, u, rfl, hf, hu⟩ := ih
      refine ⟨b :: f, u, rfl, ?_, hu⟩
      intro x hx
      rcases List.mem_cons.1 hx with rfl | hx
      · exact hb
      · exact hf x hx
    · refine ⟨[], b :: rest, rfl, by simp [Plain], ?_⟩
      rintro x ⟨⟩
      exact hb

theorem skipField_append {f : Bytes} (hf : Plain f) (u : Bytes) :
    skipField (f ++ u) = skipField u := by
  induction f with
  | nil => rfl
  | cons b f ih =>
    have hb := hf b (by simp)
    have h : ¬ (b = 124 ∨ isLineEnd b = true) := by rw [← isFieldEnd_iff, hb]; simp
    rw [List.cons_append, skipField, if_neg (fun he => h (Or.inl he)),
      if_neg (fun he => h (Or.inr he))]
    exact ih (fun x hx => hf x (by simp [hx]))

/-- A field that is not the last one is followed by a separator. -/
theorem fields_separator {f : Bytes} (hf : Plain f) (r : Bytes) :
    fields (f ++ 124 :: r) = f :: fields r ∧ skipField (f ++ 124 :: r) = r ∧
      lineBody (f ++ 124 :: r) = f ++ 124 :: lineBody r := by
  have hbody : lineBody (f ++ 124 :: r) = f ++ 124 :: lineBody r := by
    rw [lineBody, List.takeWhile_append_of_pos hf.not_lineEnd,
      List.takeWhile_cons_of_pos (by rfl), ← lineBody]
  refine ⟨?_, ?_, hbody⟩
  · rw [fields, hbody, List.splitOn_append_cons_self_of_not_mem hf.separator_notMem, ← fields]
  · rw [skipField_append hf, skipField, if_pos rfl]

/-- The last field of a line ends with the line. -/
theorem fields_last {f u : Bytes} (hf : Plain f) (hu : ∀ b ∈ u.head?, isLineEnd b = true) :
    fields (f ++ u) = [f] ∧ skipField (f ++ u) = u ∧ lineBody (f ++ u) = f := by
  have hbody : lineBody (f ++ u) = f := by
    have hstop : u.takeWhile (fun b => !isLineEnd b) = [] := by
      cases u with
      | nil => rfl
      | cons b u => rw [List.takeWhile_cons_of_neg (by simp [hu b rfl])]
    rw [lineBody, List.takeWhile_append_of_pos hf.not_lineEnd, hstop, List.append_nil]
  refine ⟨?_, ?_, hbody⟩
  · rw [fields, hbody, List.splitOn_eq_singleton hf.separator_notMem]
  · rw [skipField_append hf]
    cases u with
    | nil => rfl
    | cons b u =>
      have hb := hu b rfl
      have hne : b ≠ 124 := by rintro rfl; simp [isLineEnd] at hb
      rw [skipField, if_neg hne, if_pos hb]

theorem Ended.cases {u : Bytes} (h : Ended u) :
    (∃ r, u = 124 :: r) ∨ ∀ b ∈ u.head?, isLineEnd b = true := by
  cases u with
  | nil => exact Or.inr (by simp)
  | cons b u =>
    rcases (isFieldEnd_iff b).1 (h b rfl) with rfl | hb
    · exact Or.inl ⟨u, rfl⟩
    · right
      rintro x ⟨⟩
      exact hb

theorem skipField_iterate_of_lineEnd {u : Bytes} (hu : ∀ b ∈ u.head?, isLineEnd b = true) (i : ℕ) :
    skipField^[i] u = u := by
  have hplain : Plain [] := by simp [Plain]
  have hskip : skipField u = u := (fields_last hplain hu).2.1
  exact Function.iterate_fixed hskip i

/-- What the cursor has behind field `i`. -/
def behind (text : Bytes) (i : ℕ) : Bytes := (skipField^[i] text).dropWhile fun b => !isFieldEnd b

def fieldAt (text : Bytes) (i : ℕ) : Bytes := (fields text).getD i []

theorem ended_behind (text : Bytes) (i : ℕ) : Ended (behind text i) := by
  intro b hb
  have := List.head?_dropWhile_not (fun b => !isFieldEnd b) (skipField^[i] text)
  rw [behind] at hb
  rw [hb] at this
  simpa using this

theorem dropWhile_plain {f u : Bytes} (hf : Plain f) (hu : Ended u) :
    (f ++ u).dropWhile (fun b => !isFieldEnd b) = u := by
  rw [List.dropWhile_append_of_pos (fun b hb => by simp [hf b hb])]
  cases u with
  | nil => rfl
  | cons b u => rw [List.dropWhile_cons_of_neg (by simp [hu b rfl])]

/-- Skipping `i` fields leads to field `i`. -/
theorem skipField_iterate (text : Bytes) (i : ℕ) :
    skipField^[i] text = fieldAt text i ++ behind text i ∧ Plain (fieldAt text i) := by
  induction i generalizing text with
  | zero =>
    obtain ⟨f, u, rfl, hf, hu⟩ := exists_field text
    have hfield : fieldAt (f ++ u) 0 = f := by
      rcases hu.cases with ⟨r, rfl⟩ | hl
      · rw [fieldAt, (fields_separator hf r).1]; rfl
      · rw [fieldAt, (fields_last hf hl).1]; rfl
    rw [hfield, behind, Function.iterate_zero_apply, dropWhile_plain hf hu]
    exact ⟨rfl, hf⟩
  | succ i ih =>
    obtain ⟨f, u, rfl, hf, hu⟩ := exists_field text
    rcases hu.cases with ⟨r, rfl⟩ | hl
    · obtain ⟨hfields, hskip, -⟩ := fields_separator hf r
      have hfield : fieldAt (f ++ 124 :: r) (i + 1) = fieldAt r i := by
        rw [fieldAt, hfields, List.getD_cons_succ, ← fieldAt]
      rw [hfield, behind, Function.iterate_succ_apply, hskip, ← behind]
      exact ih r
    · obtain ⟨hfields, hskip, -⟩ := fields_last hf hl
      have hfield : fieldAt (f ++ u) (i + 1) = [] := by
        rw [fieldAt, hfields]; rfl
      rw [hfield, behind, Function.iterate_succ_apply, hskip, skipField_iterate_of_lineEnd hl,
        ← List.nil_append u, dropWhile_plain (by simp [Plain]) hu]
      exact ⟨rfl, by simp [Plain]⟩

/-- How far the cursor has come after `i` fields. -/
theorem length_skipField_iterate (text : Bytes) (i : ℕ) :
    text.length = (skipField^[i] text).length +
      if i < (fields text).length then fieldStart (fields text) i else (lineBody text).length := by
  induction i generalizing text with
  | zero =>
    have hpos : 0 < (fields text).length := List.length_pos_iff.2 (List.splitOn_ne_nil _ _)
    simp [hpos, fieldStart]
  | succ i ih =>
    obtain ⟨f, u, rfl, hf, hu⟩ := exists_field text
    rcases hu.cases with ⟨r, rfl⟩ | hl
    · obtain ⟨hfields, hskip, hbody⟩ := fields_separator hf r
      have := ih r
      rw [Function.iterate_succ_apply, hskip, hfields, hbody]
      simp only [List.length_append, List.length_cons, Nat.add_lt_add_iff_right, fieldStart,
        List.take_succ_cons, List.map_cons, List.sum_cons] at this ⊢
      split_ifs at this ⊢ <;> omega
    · obtain ⟨hfields, hskip, hbody⟩ := fields_last hf hl
      rw [Function.iterate_succ_apply, hskip, skipField_iterate_of_lineEnd hl, hfields, hbody]
      simp
      omega

end Line
end PortCodec
