import PortCodec.Proofs.Linking.Placed

/-! Linking fills in the field of every shape and touches nothing else: the image is the shapes, one
behind the other, each around its field. It fails exactly if a field cannot be filled in or an
exported name has no address. -/

namespace PortCodec.Program

open X86 Assembly

variable {mode : Mode} {a : Assembler} {base : UInt64} {items : List Item}

theorem toList_writeAt {buffer : Array UInt8} {pre mid post bs : Bytes}
    (hb : buffer.toList = pre ++ (mid ++ post)) (hlen : mid.length = bs.length) :
    (writeAt buffer pre.length bs).toList = pre ++ (bs ++ post) := by
  induction bs generalizing buffer pre mid with
  | nil =>
    obtain rfl := List.eq_nil_of_length_eq_zero hlen
    exact hb
  | cons b rest ih =>
    cases mid with
    | nil => cases hlen
    | cons x mid =>
      have hset : (buffer.setIfInBounds pre.length b).toList = (pre ++ [b]) ++ (mid ++ post) := by
        simp [hb]
      have h := ih hset (by simpa using hlen)
      simpa [writeAt] using h

theorem length_field {patch : Patch} {target source : UInt64} {bs : Bytes}
    (h : patch.field target source = .ok bs) : bs.length = patch.width := by
  unfold Patch.field at h
  cases patch with
  | rel8 | rel32 | abs32 =>
    simp only at h
    split_ifs at h
    cases h
    exact Bytes.littleEndian_length ..
  | abs64 =>
    cases h
    exact Bytes.littleEndian_length ..

/-- What the field of a shape at a place is filled with, if it can be. -/
def fieldAt? (a : Assembler) (base : UInt64) (p : ℕ × X86.Shape) : Option Bytes :=
  match p.2.field with
  | none => some []
  | some (patch, l) => do
    let target ← (a.resolve l base).toOption
    (patch.field target (base + UInt64.ofNat (p.1 + p.2.head.length + patch.width))).toOption

def linkedAt (a : Assembler) (base : UInt64) (p : ℕ × X86.Shape) : Bytes :=
  p.2.fill ((fieldAt? a base p).getD [])

theorem toOption_eq_some {ε α : Type} {x : Except ε α} {y : α} (h : x.toOption = some y) :
    x = .ok y := by
  cases x with
  | error e => cases h
  | ok z => exact congrArg _ (Option.some.inj h)

/-- A field that can be filled in, with its label and its bytes. -/
theorem fieldAt?_some {p : ℕ × X86.Shape} {bs : Bytes} (h : fieldAt? a base p = some bs) :
    bs.length = p.2.room ∧ ∀ patch l, p.2.field = some (patch, l) → ∃ target,
      a.resolve l base = .ok target ∧
      patch.field target (base + UInt64.ofNat (p.1 + p.2.head.length + patch.width)) = .ok bs := by
  unfold fieldAt? at h
  cases hf : p.2.field with
  | none =>
    simp only [hf] at h
    cases h
    exact ⟨by simp [X86.Shape.room, hf], by simp⟩
  | some x =>
    obtain ⟨patch, l⟩ := x
    simp only [hf, Option.bind_eq_bind, Option.bind_eq_some_iff] at h
    obtain ⟨target, ht, hfield⟩ := h
    have hbs := toOption_eq_some hfield
    refine ⟨by simp [X86.Shape.room, hf, length_field hbs], ?_⟩
    rintro patch' l' h'
    cases h'
    exact ⟨target, toOption_eq_some ht, hbs⟩

/-- A linked image has the size of its code. -/
theorem length_linked {o : ℕ} {items : List Item}
    (h : ∀ p ∈ placed mode o items, (fieldAt? a base p).isSome) :
    o + ((placed mode o items).flatMap (linkedAt a base)).length = behind mode o items := by
  induction items generalizing o with
  | nil => rfl
  | cons i rest ih =>
    obtain ⟨bs, hbs⟩ := Option.isSome_iff_exists.1 (h _ (List.mem_cons_self ..))
    have hlen : (linkedAt a base (o, i.shape mode o)).length = (i.shape mode o).size := by
      rw [linkedAt, hbs, Option.getD_some]
      exact X86.Shape.length_fill _ (fieldAt?_some hbs).1
    have hrest := ih fun p hp => h p (List.mem_cons_of_mem _ hp)
    rw [placed, List.flatMap_cons, List.length_append, hlen, behind]
    omega

theorem patchFields_append (buffer : Array UInt8) (xs ys : List Relocation) :
    a.patchFields base buffer (xs ++ ys) =
      match a.patchFields base buffer xs with
      | (b, none) => a.patchFields base b ys
      | (b, some e) => (b, some e) := by
  induction xs generalizing buffer with
  | nil => rfl
  | cons r rest ih =>
    simp only [List.cons_append, Assembler.patchFields]
    cases a.patchField base buffer r with
    | error e => rfl
    | ok b => exact ih b

/-- Filling in the field of one shape. -/
theorem patchFields_shape {buffer : Array UInt8} {pre post : Bytes} {s : X86.Shape}
    (hb : buffer.toList = pre ++ (s.raw ++ post)) :
    match fieldAt? a base (pre.length, s) with
    | some bs => ∃ b, a.patchFields base buffer (s.relocations pre.length) = (b, none) ∧
        b.toList = pre ++ (s.fill bs ++ post)
    | none => (a.patchFields base buffer (s.relocations pre.length)).2 ≠ none := by
  obtain ⟨head, field, tail⟩ := s
  cases field with
  | none =>
    exact ⟨buffer, rfl, by simpa [X86.Shape.raw, X86.Shape.room] using hb⟩
  | some x =>
    obtain ⟨patch, l⟩ := x
    simp only [X86.Shape.relocations, Option.map_some, Option.toList_some, Assembler.patchFields,
      Assembler.patchField, fieldAt?]
    cases hres : a.resolve l base with
    | error c => simp [Except.toOption]
    | ok target =>
      have hsize : ¬ ((patch.width : ℤ) < 0) := by omega
      simp only [if_neg hsize, Int.toNat_natCast, Except.toOption, Option.bind_eq_bind,
        Option.bind_some, lt_irrefl, ↓reduceIte]
      cases hfield : patch.field target
          (base + UInt64.ofNat (pre.length + head.length + patch.width)) with
      | error c => simp
      | ok bs =>
        refine ⟨_, rfl, ?_⟩
        have hwrite := @toList_writeAt buffer (pre ++ head) (List.replicate patch.width 0)
          (tail ++ post) bs (by simpa [X86.Shape.raw, X86.Shape.fill, X86.Shape.room] using hb)
          (by simp [length_field hfield])
        simpa [X86.Shape.fill] using hwrite

/-- Filling in the fields of all shapes from a place on. -/
theorem patchFields_placed {buffer : Array UInt8} {pre post : Bytes} (items : List Item)
    (hb : buffer.toList = pre ++ (raw (placed mode pre.length items) ++ post)) :
    ((a.patchFields base buffer (relocations (placed mode pre.length items))).2 = none ↔
      ∀ p ∈ placed mode pre.length items, (fieldAt? a base p).isSome) ∧
    ((∀ p ∈ placed mode pre.length items, (fieldAt? a base p).isSome) →
      (a.patchFields base buffer (relocations (placed mode pre.length items))).1.toList =
        pre ++ ((placed mode pre.length items).flatMap (linkedAt a base) ++ post)) := by
  induction items generalizing buffer pre with
  | nil => simpa [relocations, placed, Assembler.patchFields, raw] using hb
  | cons i rest ih =>
    set s := i.shape mode pre.length with hs
    have hone := @patchFields_shape a base buffer pre
      (raw (placed mode (pre.length + s.size) rest) ++ post) s
      (by simpa [placed, raw, ← hs] using hb)
    simp only [placed, ← hs, relocations, List.flatMap_cons, patchFields_append,
      List.forall_mem_cons]
    cases hf : fieldAt? a base (pre.length, s) with
    | none =>
      simp only [hf] at hone
      rcases hp : a.patchFields base buffer (s.relocations pre.length) with ⟨b, _ | err⟩
      · exact absurd (by rw [hp]) hone
      · simp
    | some bs =>
      simp only [hf] at hone
      obtain ⟨b, hp, hbytes⟩ := hone
      have hlen : (pre ++ s.fill bs).length = pre.length + s.size := by
        rw [List.length_append, s.length_fill (fieldAt?_some hf).1]
      have hrec := @ih b (pre ++ s.fill bs) (by rw [hlen, hbytes, List.append_assoc])
      rw [hlen] at hrec
      simp only [hp, Option.isSome_some, true_and]
      refine ⟨hrec.1, fun h => (hrec.2 h).trans ?_⟩
      simp [linkedAt, hf]

structure Carries (mode : Mode) (items : List Item) (a : Assembler) : Prop where
  code : a.code.toList = raw (placed mode 0 items)
  relocations : a.relocations.toList = relocations (placed mode 0 items)

theorem link_eq_ok_iff (h : Carries mode items a) {image : Array UInt8}
    {globals : List (String × UInt64)} :
    a.link base = .ok (image, globals) ↔
      (∀ p ∈ placed mode 0 items, (fieldAt? a base p).isSome) ∧
      a.globalAddresses base a.globals = .ok globals ∧
      image.toList = (placed mode 0 items).flatMap (linkedAt a base) := by
  have hcopy : (writeAt (Array.replicate a.size 0) 0 a.code.toList).toList = a.code.toList := by
    have := @toList_writeAt (Array.replicate a.size 0) [] (List.replicate a.size 0) []
      a.code.toList (by simp) (by simp [Assembler.size])
    simpa using this
  have hpatch := @patchFields_placed mode a base
    (writeAt (Array.replicate a.size 0) 0 a.code.toList) [] [] items
    (hcopy.trans (by simp [h.code]))
  simp only [List.length_nil, List.nil_append, List.append_nil] at hpatch
  unfold Assembler.link Assembler.flush
  rw [if_neg (by simp), h.relocations]
  rcases hp : a.patchFields base (writeAt (Array.replicate a.size 0) 0 a.code.toList)
      (relocations (placed mode 0 items)) with ⟨b, _ | err⟩
  · rw [hp] at hpatch
    have hall := hpatch.1.1 rfl
    have hb : b.toList = _ := hpatch.2 hall
    simp only [hp]
    cases hg : a.globalAddresses base a.globals with
    | error err => simp
    | ok gs =>
      simp only [Except.ok.injEq, Prod.mk.injEq]
      refine ⟨?_, ?_⟩
      · rintro ⟨rfl, rfl⟩
        exact ⟨hall, rfl, hb⟩
      · rintro ⟨-, rfl, himage⟩
        exact ⟨Array.toList_inj.1 (hb.trans himage.symm), rfl⟩
  · rw [hp] at hpatch
    simp only [hp, reduceCtorEq, false_iff, not_and]
    intro hall
    exact absurd (hpatch.1.2 hall) (by simp)

end PortCodec.Program
