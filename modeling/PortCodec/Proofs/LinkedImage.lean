import PortCodec.Proofs.LabelArena
import PortCodec.Proofs.Linking.Loaded

/-! Linking, for all code there can be. The fields of code stand apart from each other, so each
holds what its own patch wrote and leads to its label, and no other byte of the code is touched.
Linking works exactly if there is room, every label has an address and every address is in reach of
its field. It leaves the code as it was, so that it can be linked again for another address. -/

namespace PortCodec.Assembly

open X86

variable {patch : Patch} {target source : UInt64} {bs : Bytes}

/-- Whether a field can say how to get from its source to a target. A distance is a signed number of
64 bits. -/
def Patch.Reaches (target source : UInt64) : Patch → Prop
  | .rel8 =>
    -2 ^ 7 ≤ signed64 (target.toNat - source.toNat) ∧ signed64 (target.toNat - source.toNat) < 2 ^ 7
  | .rel32 trailing =>
    -2 ^ 31 ≤ signed64 (target.toNat - source.toNat - trailing) ∧
      signed64 (target.toNat - source.toNat - trailing) < 2 ^ 31
  | .abs32 => target.toNat < 2 ^ 32
  | .abs64 => True

/-- What the bytes of a field say about a target: how far it is from the source and the bytes behind
that, or where it is. Addresses wrap around. -/
def Patch.Says (target source : UInt64) (field : Bytes) : Patch → Prop
  | .rel8 => target = source + UInt64.ofInt field.signed
  | .rel32 trailing => target = source + UInt64.ofInt trailing + UInt64.ofInt field.signed
  | .abs32 | .abs64 => target.toNat = field.toNatLE

theorem Patch.exists_field_iff : (∃ bs, patch.field target source = .ok bs) ↔
    patch.Reaches target source := by
  cases patch with
  | rel8 =>
    simp only [Patch.field, Patch.Reaches]
    split_ifs <;> simp <;> omega
  | rel32 trailing =>
    simp only [Patch.field, Patch.Reaches]
    split_ifs <;> simp <;> omega
  | abs32 =>
    simp only [Patch.field, Patch.Reaches]
    split_ifs <;> simp <;> omega
  | abs64 => simp [Patch.field, Patch.Reaches]

/-- A distance added to where it counts from gives the target. -/
theorem add_ofInt_signed64 (target source : UInt64) (k : ℤ) :
    source + UInt64.ofInt k + UInt64.ofInt (signed64 (target.toNat - source.toNat - k)) =
      target := by
  have hsource : source = UInt64.ofInt source.toNat := by rw [ofInt_natCast, UInt64.ofNat_toNat]
  calc source + UInt64.ofInt k + UInt64.ofInt (signed64 (target.toNat - source.toNat - k))
      = UInt64.ofInt source.toNat + UInt64.ofInt k +
        UInt64.ofInt (target.toNat - source.toNat - k) := by
        rw [ofInt_signed64, ← hsource]
    _ = UInt64.ofInt (source.toNat + k + (target.toNat - source.toNat - k)) := by
        rw [UInt64.ofInt_add, UInt64.ofInt_add]
    _ = UInt64.ofInt target.toNat := by congr 1; ring
    _ = target := by rw [ofInt_natCast, UInt64.ofNat_toNat]

/-- A patch writes what leads to its target. -/
theorem Patch.says_of_field (h : patch.field target source = .ok bs) :
    patch.Says target source bs := by
  have hreach := Patch.exists_field_iff.1 ⟨bs, h⟩
  cases patch with
  | rel8 =>
    simp only [Patch.Reaches] at hreach
    simp only [Patch.field] at h
    split_ifs at h
    cases h
    have hd : (Bytes.littleEndian 1 (signed64 (target.toNat - source.toNat) % 256).toNat).signed =
        signed64 (target.toNat - source.toNat) := by
      rw [signed_littleEndian_eq]
      simp only [Nat.pow_eq, Int.bmod_def]
      split <;> omega
    have hadd := add_ofInt_signed64 target source 0
    rw [show UInt64.ofInt 0 = 0 from rfl, UInt64.add_zero, sub_zero] at hadd
    rw [Patch.Says, hd, hadd]
  | rel32 trailing =>
    simp only [Patch.Reaches] at hreach
    simp only [Patch.field] at h
    split_ifs at h
    cases h
    rw [Patch.Says, signed_littleEndian (.inr rfl) hreach, add_ofInt_signed64]
  | abs32 =>
    simp only [Patch.Reaches] at hreach
    simp only [Patch.field, if_pos hreach] at h
    cases h
    rw [Patch.Says, Bytes.toNatLE_littleEndian]
    omega
  | abs64 =>
    cases h
    rw [Patch.Says, Bytes.toNatLE_littleEndian]
    have := target.toNat_lt
    omega

section Writing

variable {buffer : Array UInt8} {i j : ℕ}

@[simp] theorem size_writeAt (buffer : Array UInt8) (i : ℕ) (bs : Bytes) :
    (writeAt buffer i bs).size = buffer.size := by
  induction bs generalizing buffer i with
  | nil => rfl
  | cons b rest ih => rw [writeAt, ih, Array.size_setIfInBounds]

theorem writeAt_outside (h : j < i ∨ i + bs.length ≤ j) :
    (writeAt buffer i bs)[j]? = buffer[j]? := by
  induction bs generalizing buffer i with
  | nil => rfl
  | cons b rest ih =>
    rw [List.length_cons] at h
    rw [writeAt, ih (by omega), Array.getElem?_setIfInBounds_ne (by omega)]

theorem writeAt_inside (hroom : i + bs.length ≤ buffer.size) {k : ℕ} (hk : k < bs.length) :
    (writeAt buffer i bs)[i + k]? = bs[k]? := by
  induction bs generalizing buffer i k with
  | nil => cases hk
  | cons b rest ih =>
    rw [List.length_cons] at hroom hk
    cases k with
    | zero =>
      rw [writeAt, writeAt_outside (by omega)]
      simp [show i < buffer.size by omega]
    | succ k =>
      have h := @ih (buffer.setIfInBounds i b) (i + 1)
          (by rw [Array.size_setIfInBounds]; omega) k (by omega)
      rw [writeAt, show i + (k + 1) = i + 1 + k by omega, h, List.getElem?_cons_succ]

end Writing

end PortCodec.Assembly

namespace PortCodec.Assembler

open Assembly

variable {a b : Assembler} {base : UInt64} {buffer image : Array UInt8} {rs : List Relocation}
  {r : Relocation}
  {low high : ℕ}

section Fields

theorem Laid.between (h : Laid low high rs) (hr : r ∈ rs) :
    low ≤ r.offset ∧ r.offset + r.size.toNat ≤ high := by
  induction rs generalizing low with
  | nil => cases hr
  | cons r' rest ih =>
    rcases List.mem_cons.1 hr with rfl | hr
    · exact ⟨h.1, h.2.le⟩
    · have := ih h.2 hr
      have := h.1
      omega

/-- A field of the right size is filled in if its label has an address that is in reach. -/
theorem patchField_isOk_iff (hw : r.size = r.patch.width) :
    (∃ image, a.patchField base buffer r = .ok image) ↔
    ∃ target, a.resolve r.target base = .ok target ∧ r.patch.Reaches target (r.source base) := by
  constructor
  · rintro ⟨image, h⟩
    obtain ⟨target, bs, ht, hbs, -⟩ := patchField_eq_ok h
    exact ⟨target, ht, Patch.exists_field_iff.1 ⟨bs, hbs⟩⟩
  · rintro ⟨target, ht, hreach⟩
    obtain ⟨bs, hbs⟩ := Patch.exists_field_iff.2 hreach
    have hneg : ¬ r.size < 0 := by omega
    have hroom : ¬ r.size < r.patch.width := by omega
    refine ⟨writeAt buffer r.offset bs, ?_⟩
    unfold patchField
    rw [ht]
    dsimp only
    rw [if_neg hneg, show base + UInt64.ofNat (r.offset + r.size.toNat) =
      r.source base from rfl, hbs]
    dsimp only
    rw [if_neg hroom]

/-- Fields are filled in one after the other, each whether or not the others were there. -/
theorem patchFields_isNone_iff (hw : ∀ r ∈ rs, r.size = r.patch.width) (buffer : Array UInt8) :
    (a.patchFields base buffer rs).2 = none ↔
      ∀ r ∈ rs, ∃ target, a.resolve r.target base = .ok target ∧
        r.patch.Reaches target (r.source base) := by
  induction rs generalizing buffer with
  | nil => simp [patchFields]
  | cons r rest ih =>
    obtain ⟨hr, hrest⟩ := List.forall_mem_cons.1 hw
    have hone := @patchField_isOk_iff a base buffer r hr
    rw [List.forall_mem_cons, ← hone, patchFields]
    cases hp : a.patchField base buffer r with
    | error e => simp
    | ok patched => simpa using ih hrest patched

/-- Bytes outside of all fields stay. -/
theorem patchFields_outside (h : a.patchFields base buffer rs = (image, none)) :
    image.size = buffer.size ∧
      ∀ j, (∀ r ∈ rs, j < r.offset ∨ r.offset + r.size.toNat ≤ j) → image[j]? = buffer[j]? := by
  induction rs generalizing buffer with
  | nil =>
    cases h
    exact ⟨rfl, fun j _ => rfl⟩
  | cons r rest ih =>
    rw [patchFields] at h
    split at h
    next patched hp =>
      obtain ⟨-, bs, -, -, rfl, hlen⟩ := patchField_eq_ok hp
      obtain ⟨hsize, hkept⟩ := ih h
      refine ⟨hsize.trans (size_writeAt ..), fun j hj => ?_⟩
      obtain ⟨hr, hrest⟩ := List.forall_mem_cons.1 hj
      rw [hkept j hrest, writeAt_outside (by omega)]
    · cases h

/-- Each field holds what its patch wrote, since the fields behind it leave it alone. -/
theorem patchFields_field (h : a.patchFields base buffer rs = (image, none))
    (hlaid : Laid low high rs) (hhigh : high ≤ buffer.size) (hr : r ∈ rs) :
    ∃ target bs, a.resolve r.target base = .ok target ∧
      r.patch.field target (r.source base) = .ok bs ∧
      (image.toList.drop r.offset).take r.patch.width = bs := by
  induction rs generalizing buffer low with
  | nil => cases hr
  | cons r' rest ih =>
    rw [patchFields] at h
    split at h
    next patched hp =>
      obtain ⟨target, bs, ht, hbs, rfl, hlen⟩ := patchField_eq_ok hp
      have hle := hlaid.2.le
      rcases List.mem_cons.1 hr with rfl | hr
      · refine ⟨target, bs, ht, hbs, ?_⟩
        rw [← Program.length_field hbs]
        apply List.ext_getElem?
        intro k
        by_cases hk : k < bs.length
        -- the fields behind start where this one ends, or later
        · have hapart :
              ∀ s ∈ rest, r.offset + k < s.offset ∨ s.offset + s.size.toNat ≤ r.offset + k := by
            intro s hs
            have := (hlaid.2.between hs).1
            omega
          rw [List.getElem?_take_of_lt hk, List.getElem?_drop, Array.getElem?_toList,
            (patchFields_outside h).2 _ hapart, writeAt_inside (by omega) hk]
        · rw [List.getElem?_eq_none (by simp; omega), List.getElem?_eq_none (by omega)]
      · exact ih h hlaid.2 (by rw [size_writeAt]; exact hhigh) hr
    · cases h

end Fields

section Exports

theorem globalAddresses_isOk_iff (gs : List (String × ℤ)) :
    (∃ xs, a.globalAddresses base gs = .ok xs) ↔
    ∀ g ∈ gs, ∃ address, a.resolve g.2 base = .ok address := by
  induction gs with
  | nil => simp [globalAddresses]
  | cons g rest ih =>
    rw [List.forall_mem_cons, ← ih, globalAddresses]
    cases hg : a.resolve g.2 base with
    | error c => simp
    | ok address =>
      cases hrest : a.globalAddresses base rest with
      | error e => simp [Except.map]
      | ok xs => simp [Except.map]

theorem globalAddresses_eq_ok {gs : List (String × ℤ)} {xs : List (String × UInt64)}
    (h : a.globalAddresses base gs = .ok xs) : xs.map (·.1) = gs.map (·.1) ∧
      ∀ name address, (name, address) ∈ xs ↔
        ∃ l, (name, l) ∈ gs ∧ a.resolve l base = .ok address := by
  induction gs generalizing xs with
  | nil =>
    cases h
    simp
  | cons g rest ih =>
    obtain ⟨name, l⟩ := g
    rw [globalAddresses] at h
    cases hl : a.resolve l base with
    | error c => simp [hl] at h
    | ok address =>
      cases hrest : a.globalAddresses base rest with
      | error e => simp [hl, hrest, Except.map] at h
      | ok ys =>
        simp only [hl, hrest, Except.map, Except.ok.injEq] at h
        obtain ⟨hnames, hmem⟩ := ih hrest
        subst h
        refine ⟨by simp [hnames], fun n x => ?_⟩
        simp only [List.mem_cons, Prod.mk.injEq, hmem]
        constructor
        · rintro (⟨rfl, rfl⟩ | ⟨k, hk, hx⟩)
          · exact ⟨l, .inl ⟨rfl, rfl⟩, hl⟩
          · exact ⟨k, .inr hk, hx⟩
        · rintro ⟨k, ⟨rfl, rfl⟩ | hk, hx⟩
          · rw [hl] at hx
            exact .inl ⟨rfl, (Except.ok.inj hx).symm⟩
          · exact .inr ⟨k, hk, hx⟩

def NamesOnce (a : Assembler) : Prop := (a.globals.map (·.1)).Nodup

theorem namesOnce_exportAs (h : NamesOnce a) (name : String) (l : ℤ) :
    NamesOnce (a.exportAs name l) := by
  unfold NamesOnce exportAs at *
  split_ifs with hname
  · have hsame : ((fun g : String × ℤ => g.1) ∘ fun g => if g.1 = name then (name, l) else g) =
        fun g => g.1 := by
      funext g
      dsimp only [Function.comp]
      split_ifs with hg
      · exact hg.symm
      · rfl
    rw [List.map_map, hsame]
    exact h
  · have hnew : name ∉ a.globals.map (·.1) := by
      intro hmem
      obtain ⟨g, hg, heq⟩ := List.mem_map.1 hmem
      exact hname (List.any_eq_true.2 ⟨g, hg, by simpa using heq⟩)
    rw [List.map_append, List.map_singleton, ← List.concat_eq_append]
    exact h.concat hnew

theorem Change.namesOnce (h : Change a b) (ha : NamesOnce a) : NamesOnce b := by
  cases h with
  | bytes bs | relocate size patch target | label hx => exact ha
  | define hd =>
    obtain ⟨-, rfl⟩ := define_eq_ok hd
    exact ha
  | exportAs name l => exact namesOnce_exportAs ha name l

theorem Changes.namesOnce (h : Changes a b) (ha : NamesOnce a) : NamesOnce b := by
  induction h with
  | refl => exact ha
  | tail _ hstep ih => exact hstep.namesOnce ih

end Exports

/-- What is done with an assembler: its code is edited, or linked into a buffer for an address. -/
inductive Call
  | edit (x : Edit)
  | flush (buffer : Array UInt8) (base : UInt64)

def Call.run (a : Assembler) :
    Call → Assembler × Option (Array UInt8 × Except LinkError (List (String × UInt64)))
  | .edit x => (x.apply a, none)
  | .flush buffer base => (a, some (a.flush buffer base))

def after (calls : List Call) : Assembler := calls.foldl (fun a c => (c.run a).1) {}

theorem changes_after (calls : List Call) : Changes {} (after calls) := by
  induction calls using List.reverseRecOn with
  | nil => exact .refl
  | append_singleton calls c ih =>
    rw [after, List.foldl_append]
    cases c with
    | edit x => exact ih.trans (changes_apply _ x)
    | flush buffer base => exact ih

/-- The buffer and the addresses after code was linked into a buffer for an address. -/
structure Linked (a : Assembler) (buffer : Array UInt8) (base : UInt64) (image : Array UInt8)
    (globals : List (String × UInt64)) : Prop where
  size : image.size = buffer.size
  code : ∀ i < a.size, (∀ r ∈ a.relocations, i < r.offset ∨ r.offset + r.patch.width ≤ i) →
    image[i]? = a.code[i]?
  behind : ∀ i, a.size ≤ i → image[i]? = buffer[i]?
  field : ∀ r ∈ a.relocations, r.offset + r.patch.width ≤ a.size ∧
    ∃ target, a.resolve r.target base = .ok target ∧
    r.patch.Says target (r.source base) ((image.toList.drop r.offset).take r.patch.width)
  names : (globals.map (·.1)).Nodup
  addresses : ∀ name address, (name, address) ∈ globals ↔
    ∃ l, (name, l) ∈ a.globals ∧ a.resolve l base = .ok address

/-- When linking works, and what it does. -/
structure Links (a : Assembler) (buffer : Array UInt8) (base : UInt64) : Prop where
  isOk_iff : (∃ image globals, a.flush buffer base = (image, .ok globals)) ↔
    a.size ≤ buffer.size ∧
      (∀ r ∈ a.relocations, ∃ target,
        a.resolve r.target base = .ok target ∧ r.patch.Reaches target (r.source base)) ∧
      ∀ g ∈ a.globals, ∃ address, a.resolve g.2 base = .ok address
  linked : ∀ image globals, a.flush buffer base = (image, .ok globals) →
    Linked a buffer base image globals
  short : buffer.size < a.size → (a.flush buffer base).1 = buffer

section Linking

variable (hw : ∀ r ∈ a.relocations.toList, r.size = r.patch.width)
include hw

theorem flush_isOk_iff : (∃ image globals, a.flush buffer base = (image, .ok globals)) ↔
    a.size ≤ buffer.size ∧
      (∀ r ∈ a.relocations.toList, ∃ target,
        a.resolve r.target base = .ok target ∧ r.patch.Reaches target (r.source base)) ∧
      ∀ g ∈ a.globals, ∃ address, a.resolve g.2 base = .ok address := by
  have hfields := @patchFields_isNone_iff a base _ hw (writeAt buffer 0 a.code.toList)
  rw [← hfields, ← globalAddresses_isOk_iff]
  constructor
  · rintro ⟨image, globals, h⟩
    obtain ⟨hsize, hp, hg⟩ := flush_eq_ok_iff.1 h
    exact ⟨hsize, by rw [hp], globals, hg⟩
  · rintro ⟨hsize, hp, globals, hg⟩
    exact ⟨_, globals, flush_eq_ok_iff.2 ⟨hsize, Prod.ext rfl hp, hg⟩⟩

/-- What was linked, if all code so far came about by changes. -/
theorem linked_of_flush {globals : List (String × UInt64)} (ha : Changes {} a)
    (h : a.flush buffer base = (image, .ok globals)) : Linked a buffer base image globals := by
  obtain ⟨hsize, hp, hg⟩ := flush_eq_ok_iff.1 h
  obtain ⟨hkeep, hkept⟩ := patchFields_outside hp
  obtain ⟨hnames, haddresses⟩ := globalAddresses_eq_ok hg
  have hlaid := ha.grows.laid
  have hwidth (r : Relocation) (hr : r ∈ a.relocations.toList) : r.size.toNat = r.patch.width := by
    rw [hw r hr, Int.toNat_natCast]
  have hcopied : (writeAt buffer 0 a.code.toList).size = buffer.size := size_writeAt ..
  constructor
  case size => rw [hkeep, hcopied]
  case code =>
    intro i hi hout
    have hcode : i < a.code.toList.length := by rwa [Array.length_toList]
    have hinside := @writeAt_inside a.code.toList buffer 0 (by simpa [size] using hsize) i hcode
    rw [Nat.zero_add, Array.getElem?_toList] at hinside
    rw [hkept i fun r hr => hwidth r hr ▸ hout r (Array.mem_toList_iff.1 hr), hinside]
  case behind =>
    intro i hi
    have hcode : 0 + a.code.toList.length ≤ i := by rwa [Nat.zero_add, Array.length_toList]
    rw [hkept i fun r hr => .inr ((hlaid.between hr).2.trans hi), writeAt_outside (.inr hcode)]
  case field =>
    intro r hr
    have hr := Array.mem_toList_iff.2 hr
    obtain ⟨target, bs, ht, hbs, hfield⟩ := patchFields_field hp hlaid (by rwa [hcopied]) hr
    refine ⟨hwidth r hr ▸ (hlaid.between hr).2, target, ht, ?_⟩
    rw [hfield]
    exact Patch.says_of_field hbs
  case names =>
    rw [hnames]
    exact ha.namesOnce (List.nodup_nil)
  case addresses => exact haddresses

end Linking

/-- Linking does this for all code whose fields have the sizes of their patches, and however often
it is done. -/
theorem flush_links {calls : List Call}
    (hw : ∀ r ∈ (after calls).relocations, r.size = r.patch.width)
    (buffer : Array UInt8) (base : UInt64) :
    Links (after calls) buffer base ∧ after (calls ++ [.flush buffer base]) = after calls ∧
      ∀ buffer' base', ((Call.flush buffer' base').run (after (calls ++ [.flush buffer base]))).2 =
        some ((after calls).flush buffer' base') := by
  have hw' : ∀ r ∈ (after calls).relocations.toList, r.size = r.patch.width :=
    fun r hr => hw r (Array.mem_toList_iff.1 hr)
  have hsame : after (calls ++ [.flush buffer base]) = after calls := by
    rw [after, List.foldl_append]; rfl
  refine ⟨⟨?_, fun image globals h => linked_of_flush hw' (changes_after calls) h,
    fun h => ?_⟩, hsame, ?_⟩
  · simpa only [Array.mem_toList_iff] using @flush_isOk_iff _ base buffer hw'
  · rw [flush, if_pos h]
  · intro buffer' base'
    rw [hsame, Call.run]

/-- A jump ahead over two bytes, the address of the start, one two bytes behind the jump, and a jump
back. -/
def jumps : List Call :=
  [.edit .here, .edit (.exportAs "start" 0), .edit .newLabel, .edit (.bytes [0xe9]),
    .edit (.relocate 4 (.rel32 0) 1),
    .edit (.bytes [0x90, 0x90]), .edit (.define 1), .edit (.exportAs "ahead" 1),
    .edit (.relocate 8 .abs64 0),
    .edit (.relative 1 2), .edit (.relocate 4 .abs32 2), .edit (.bytes [0xeb]),
      .edit (.relocate 1 .rel8 0)]

theorem jumps_link : (∀ r ∈ (after jumps).relocations, r.size = r.patch.width) ∧
    ∃ image, (after jumps).flush (Array.replicate 22 0xee) 0x2000 =
        (image, .ok [("start", 0x2000), ("ahead", 0x2007)]) ∧
      image = #[0xe9, 2, 0, 0, 0, 0x90, 0x90, 0, 0x20, 0, 0, 0, 0, 0, 0, 9, 0x20, 0, 0,
        0xeb, 0xeb, 0xee] ∧
      Linked (after jumps) (Array.replicate 22 0xee) 0x2000 image [("start", 0x2000),
        ("ahead", 0x2007)] ∧
      after (jumps ++ [.flush (Array.replicate 22 0xee) 0x2000]) = after jumps := by
  have hw : ∀ r ∈ (after jumps).relocations, r.size = r.patch.width := by decide +kernel
  obtain ⟨hlinks, hsame, -⟩ := flush_links hw (Array.replicate 22 0xee) 0x2000
  refine ⟨hw, _, ?_, rfl, hlinks.linked _ _ ?_, hsame⟩
  · decide +kernel
  · decide +kernel

end PortCodec.Assembler
