import PortCodec.Program.Basic
import PortCodec.Proofs.Encoding.Shape

/-! Where the pieces of a routine end up. Every item is a shape at its place, marks and filling
included, and writing the items leaves their shapes one behind the other and their marks bound. -/

namespace PortCodec.Program

open X86 Assembly

variable {mode : Mode} {e : Emitter}

def padding (n o : ℕ) : ℕ := if n ≤ 1 ∨ o % n = 0 then 0 else n - o % n

/-- What an item is written as at a place. An instruction that cannot be encoded is nothing. -/
def Item.shape (mode : Mode) (o : ℕ) : Item → X86.Shape
  | .code i => (i.shape mode).toOption.getD { head := [] }
  | .mark _ => { head := [] }
  | .align n => { head := List.replicate (padding n o) 0xcc }

/-- Instructions that the emitter takes as they are. -/
def Item.Encodable (mode : Mode) : Item → Prop
  | .code i => (∃ s, i.shape mode = .ok s) ∧ ∀ x ∈ i.memory?, x.IsPlain
  | _ => True

def placed (mode : Mode) : (o : ℕ) → List Item → List (ℕ × X86.Shape)
  | _, [] => []
  | o, i :: rest => (o, i.shape mode o) :: placed mode (o + (i.shape mode o).size) rest

def behind (mode : Mode) : (o : ℕ) → List Item → ℕ
  | o, [] => o
  | o, i :: rest => behind mode (o + (i.shape mode o).size) rest

def bound (mode : Mode) : (o : ℕ) → List Item → List (Mark × ℕ)
  | _, [] => []
  | o, .mark m :: rest => (m, o) :: bound mode o rest
  | o, i :: rest => bound mode (o + (i.shape mode o).size) rest

def marks : List Item → List Mark
  | [] => []
  | .mark m :: rest => m :: marks rest
  | _ :: rest => marks rest

theorem marks_append (xs ys : List Item) : marks (xs ++ ys) = marks xs ++ marks ys := by
  induction xs with
  | nil => rfl
  | cons i rest ih => cases i <;> simp [marks, ih]

theorem map_bound (o : ℕ) (items : List Item) : (bound mode o items).map (·.1) = marks items := by
  induction items generalizing o with
  | nil => rfl
  | cons i rest ih => cases i <;> simp [bound, marks, ih]

theorem behind_append (o : ℕ) (xs ys : List Item) :
    behind mode o (xs ++ ys) = behind mode (behind mode o xs) ys := by
  induction xs generalizing o with
  | nil => rfl
  | cons i rest ih => exact ih _

theorem placed_append (o : ℕ) (xs ys : List Item) :
    placed mode o (xs ++ ys) = placed mode o xs ++ placed mode (behind mode o xs) ys := by
  induction xs generalizing o with
  | nil => rfl
  | cons i rest ih => simp [placed, behind, ih]

theorem bound_append (o : ℕ) (xs ys : List Item) :
    bound mode o (xs ++ ys) = bound mode o xs ++ bound mode (behind mode o xs) ys := by
  induction xs generalizing o with
  | nil => rfl
  | cons i rest ih =>
    cases i <;> simp [bound, behind, ih, Item.shape, X86.Shape.size, X86.Shape.room]

theorem le_behind (o : ℕ) (items : List Item) : o ≤ behind mode o items := by
  induction items generalizing o with
  | nil => exact le_rfl
  | cons i rest ih => exact (Nat.le_add_right _ _).trans (ih _)

def raw (ps : List (ℕ × X86.Shape)) : Bytes := ps.flatMap (·.2.raw)

def relocations (ps : List (ℕ × X86.Shape)) : List Relocation :=
  ps.flatMap fun p => p.2.relocations p.1

theorem length_raw_placed (o : ℕ) (items : List Item) :
    o + (raw (placed mode o items)).length = behind mode o items := by
  induction items generalizing o with
  | nil => rfl
  | cons i rest ih =>
    have h := ih (o + (i.shape mode o).size)
    simp only [raw, placed, List.flatMap_cons, List.length_append,
      X86.Shape.length_raw, behind] at h ⊢
    omega

def bind (labels : Array Binding) (ms : List (Mark × ℕ)) : Array Binding :=
  ms.foldl (fun ls p => ls.setIfInBounds p.1.label.toNat (.inside p.2)) labels

def appendedAt (o : ℕ) (e : Emitter) (items : List Item) : Emitter :=
  { e with assembler :=
      { e.assembler with
        code := e.assembler.code ++ raw (placed e.mode o items)
        labels := bind e.assembler.labels (bound e.mode o items)
        relocations := e.assembler.relocations ++ (relocations (placed e.mode o items)).toArray } }

def appended (e : Emitter) (items : List Item) : Emitter := appendedAt e.assembler.size e items

section Marks

theorem Mark.label_nonneg (m : Mark) : 0 ≤ m.label := by
  cases m <;> simp only [Mark.label] <;> omega

def Mark.single : List Mark :=
  [.serialize, .deserialize, .read, .write, .formatAxis, .parseAxis, .skipField, .readTable,
   .writeTable, .readEnd, .writeEnd, .positive, .divide, .output, .formatted, .blanks, .nextBlank,
   .sign, .plus, .digits, .parsed, .signed, .nextByte, .separator, .skipped]

def Mark.ofLabel? (n : ℕ) : Option Mark :=
  if n < 25 then Mark.single[n]?
  else match n % 4 with
    | 1 => some (.serialized ((n - 25) / 4))
    | 2 => some (.deserialized ((n - 26) / 4))
    | 3 => some (.readEntry ((n - 27) / 4))
    | _ => some (.writeEntry ((n - 28) / 4))

theorem Mark.ofLabel?_label (m : Mark) : Mark.ofLabel? m.label.toNat = some m := by
  have hmany (r i : ℕ) (hr : 25 ≤ r) (h29 : r < 29) : ((r : ℤ) + 4 * i).toNat = r + 4 * i ∧
      ¬ r + 4 * i < 25 ∧ (r + 4 * i) % 4 = r % 4 ∧ (r + 4 * i - r) / 4 = i := by omega
  cases m with
  | serialized i =>
    obtain ⟨h1, h2, h3, h4⟩ := hmany 25 i (by decide) (by decide)
    exact (congrArg _ h1).trans (by simp only [ofLabel?, if_neg h2, h3, h4])
  | deserialized i =>
    obtain ⟨h1, h2, h3, h4⟩ := hmany 26 i (by decide) (by decide)
    exact (congrArg _ h1).trans (by simp only [ofLabel?, if_neg h2, h3, h4])
  | readEntry i =>
    obtain ⟨h1, h2, h3, h4⟩ := hmany 27 i (by decide) (by decide)
    exact (congrArg _ h1).trans (by simp only [ofLabel?, if_neg h2, h3, h4])
  | writeEntry i =>
    obtain ⟨h1, h2, h3, h4⟩ := hmany 28 i (by decide) (by decide)
    exact (congrArg _ h1).trans (by simp only [ofLabel?, if_neg h2, h3, h4])
  | _ => rfl

theorem Mark.label_inj {m k : Mark} (h : m.label.toNat = k.label.toNat) : m = k := by
  have hm := Mark.ofLabel?_label m
  rw [h, Mark.ofLabel?_label k] at hm
  exact (Option.some.inj hm).symm

theorem binding?_label (a : Assembler) (m : Mark) : a.binding? m.label = a.labels[m.label.toNat]? :=
  if_pos m.label_nonneg

end Marks

section Bind

variable {labels : Array Binding}

theorem getElem?_bind_of_notMem {ms : List (Mark × ℕ)} {m : Mark} (h : m ∉ ms.map (·.1)) :
    (bind labels ms)[m.label.toNat]? = labels[m.label.toNat]? := by
  induction ms generalizing labels with
  | nil => rfl
  | cons p rest ih =>
    simp only [List.map_cons, List.mem_cons, not_or] at h
    have hne : p.1.label.toNat ≠ m.label.toNat := fun he => h.1 (Mark.label_inj he).symm
    exact (ih h.2).trans (Array.getElem?_setIfInBounds_ne hne)

/-- A mark that occurs once is bound to its place. -/
theorem getElem?_bind {ms : List (Mark × ℕ)} {m : Mark} {o : ℕ} (hn : (ms.map (·.1)).Nodup)
    (hm : (m, o) ∈ ms) (hl : m.label.toNat < labels.size) :
    (bind labels ms)[m.label.toNat]? = some (.inside o) := by
  induction ms generalizing labels with
  | nil => cases hm
  | cons p rest ih =>
    simp only [List.map_cons, List.nodup_cons] at hn
    rcases List.mem_cons.1 hm with rfl | hm
    · refine (getElem?_bind_of_notMem hn.1).trans ?_
      simp [hl]
    · exact ih hn.2 hm (by simpa using hl)

end Bind

theorem padding_eq (a : Assembler) (n : ℕ) (fill : UInt8) :
    a.align n fill = a.bytes (List.replicate (padding n a.size) fill) := by
  unfold Assembler.align Assembler.pad padding
  by_cases h : n ≤ 1 ∨ a.size % n = 0
  · have h' : (n : ℤ) ≤ 1 ∨ (a.size : ℤ) % n = 0 := by omega
    rw [if_pos h, if_pos h']
    simp [Assembler.bytes]
  · have h' : ¬ ((n : ℤ) ≤ 1 ∨ (a.size : ℤ) % n = 0) := by omega
    rw [if_neg h, if_neg h']
    have hk : ((n : ℤ) - a.size % n).toNat = n - a.size % n := by omega
    rw [hk]

/-- One item is appended. -/
theorem place_eq {i : Item} (he : e.error = none) (hi : i.Encodable e.mode)
    (hm : ∀ m, i = .mark m → e.assembler.binding? m.label = some .unbound) :
    place e i = (appended e [i], none) := by
  cases i with
  | code i =>
    obtain ⟨⟨s, hs⟩, hp⟩ := hi
    refine (Emitter.emit_eq he hs hp).trans ?_
    simp [appended, appendedAt, Emitter.put, placed, bound, bind, raw, relocations, Item.shape, hs,
      Except.toOption]
  | mark m =>
    have h := hm m rfl
    simp only [place, Assembler.define, h]
    simp [appended, appendedAt, placed, bound, bind, raw, relocations, Item.shape,
      X86.Shape.raw, X86.Shape.fill, X86.Shape.room, X86.Shape.relocations]
  | align n =>
    simp only [place, padding_eq]
    simp [appended, appendedAt, placed, bound, bind, raw, relocations, Item.shape,
      X86.Shape.raw, X86.Shape.fill, X86.Shape.room, X86.Shape.relocations, Assembler.bytes]

theorem size_appended (e : Emitter) (items : List Item) :
    (appended e items).assembler.size = behind e.mode e.assembler.size items := by
  rw [← length_raw_placed]
  exact Emitter.size_append_bytes _ _

theorem appended_cons (e : Emitter) (i : Item) (rest : List Item) :
    appended (appended e [i]) rest = appended e (i :: rest) := by
  have hsize := size_appended e [i]
  simp only [behind] at hsize
  have happ := @bound_append e.mode e.assembler.size [i] rest
  simp only [behind, List.singleton_append] at happ
  rw [appended, hsize]
  simp [appended, appendedAt, placed, happ, raw, relocations, bind, Emitter.append_append]

theorem placeAll_append {e' : Emitter} {items rest : List Item}
    (h : placeAll e items = (e', none)) :
    placeAll e (items ++ rest) = placeAll e' rest := by
  induction items generalizing e with
  | nil =>
    cases h
    rfl
  | cons i items ih =>
    rw [placeAll] at h
    rw [List.cons_append, placeAll]
    rcases hplace : place e i with ⟨e₁, misuse⟩
    rw [hplace] at h
    cases misuse with
    | none => exact ih h
    | some misuse => cases h

/-- Items that can be encoded, with marks that are still free, are all appended. -/
theorem placeAll_eq {items : List Item} (he : e.error = none)
    (hi : ∀ i ∈ items, i.Encodable e.mode) (hn : (marks items).Nodup)
    (hm : ∀ m ∈ marks items, e.assembler.binding? m.label = some .unbound) :
    placeAll e items = (appended e items, none) := by
  induction items generalizing e with
  | nil => simp [placeAll, appended, appendedAt, placed, bound, bind, raw, relocations]
  | cons i rest ih =>
    have hhead : place e i = (appended e [i], none) := by
      refine place_eq he (hi i (by simp)) ?_
      rintro m rfl
      exact hm m (by simp [marks])
    simp only [placeAll, hhead]
    rw [← appended_cons e i rest]
    have hsub : ∀ m ∈ marks rest, m ∈ marks (i :: rest) ∧
        m ∉ (bound e.mode e.assembler.size [i]).map (·.1) := by
      intro m h
      cases i with
      | mark k =>
        simp only [marks, List.nodup_cons] at hn
        exact ⟨List.mem_cons_of_mem _ h, by simpa [bound] using fun (he : m = k) => hn.1 (he ▸ h)⟩
      | code c => exact ⟨h, by simp [bound]⟩
      | align n => exact ⟨h, by simp [bound]⟩
    refine ih he (fun j hj => hi j (List.mem_cons_of_mem _ hj)) ?_ fun m h => ?_
    · cases i with
      | mark k => exact (List.nodup_cons.1 hn).2
      | code c => exact hn
      | align n => exact hn
    · obtain ⟨h1, h2⟩ := hsub m h
      have h3 := hm m h1
      rw [binding?_label] at h3 ⊢
      exact (getElem?_bind_of_notMem h2).trans h3

end PortCodec.Program
