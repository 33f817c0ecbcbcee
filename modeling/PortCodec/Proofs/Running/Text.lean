import PortCodec.Line.Codec
import PortCodec.Proofs.AxisText
import PortCodec.Proofs.Compiling.Compiled
import PortCodec.Proofs.Running.Rules

/-! Running over a line. The text register points into a line that may be read up to the byte that
ends it, and the code that is called to skip a field or to read an axis moves it as the readers of
lines do. -/

namespace PortCodec.X86

/-- A line from an address on, that may be read up to the byte that ends it. -/
def Site.Spells (c : Site) : ℕ → Bytes → Prop
  | _, [] => False
  | x, b :: rest => x < c.guard.space ∧ c.guard.readable x = true ∧ c.guard.writable x = false ∧
      c.memory x = b ∧ (isLineEnd b = true ∨ c.Spells (x + 1) rest)

variable {c : Site} {x : ℕ} {b : UInt8} {rest text : Bytes}

theorem Site.Spells.exists_cons (h : c.Spells x text) : ∃ b rest, text = b :: rest := by
  cases text with
  | nil => exact h.elim
  | cons b rest => exact ⟨b, rest, rfl⟩

theorem Site.Spells.tail (h : c.Spells x (b :: rest)) (hb : isLineEnd b = false) :
    c.Spells (x + 1) rest := h.2.2.2.2.resolve_left (by simp [hb])

theorem Site.Spells.lt (h : c.Spells x text) : x < c.guard.space := by
  cases text with
  | nil => exact h.elim
  | cons b rest => exact h.1

/-- A line that lies in memory and may be read up to its end. -/
theorem Site.spells_of_lays {c : Site} {x : ℕ} {bs : Bytes} (hany : bs.any isLineEnd = true)
    (hbytes : Lays c.memory x bs) (h : ∀ i ≤ bs.findIdx isLineEnd, x + i < c.guard.space ∧
      c.guard.readable (x + i) = true ∧ c.guard.writable (x + i) = false) : c.Spells x bs := by
  induction bs generalizing x with
  | nil => simp at hany
  | cons b rest ih =>
    obtain ⟨hlt, hread, hwrite⟩ := h 0 (Nat.zero_le _)
    refine ⟨hlt, hread, hwrite, hbytes 0 (by simp), ?_⟩
    by_cases hb : isLineEnd b = true
    · exact .inl hb
    · refine .inr (ih (by simpa [hb] using hany) (fun i hi => ?_) fun i hi => ?_)
      · have := hbytes (i + 1) (by simpa using hi)
        rwa [show x + 1 + i = x + (i + 1) by omega]
      · have := h (i + 1) (by rw [List.findIdx_cons]; simp [hb, hi])
        rwa [show x + 1 + i = x + (i + 1) by omega]

/-- Registers other than the given ones are kept. -/
def Kept (rs : List Register) (R R' : Register → ℕ) : Prop := ∀ r ∉ rs, R' r = R r

variable {rs rs' : List Register} {R R' R'' : Register → ℕ}

theorem Kept.refl (rs : List Register) (R : Register → ℕ) : Kept rs R R := fun _ _ => rfl

theorem Kept.trans (h : Kept rs R R') (h' : Kept rs R' R'') : Kept rs R R'' :=
  fun r hr => (h' r hr).trans (h r hr)

theorem Kept.mono (h : Kept rs R R') (hs : rs ⊆ rs') : Kept rs' R R' :=
  fun r hr => h r fun hm => hr (hs hm)

theorem Kept.update {r : Register} {v : ℕ} (h : Kept rs R R') (hr : r ∈ rs) :
    Kept rs R (Function.update R' r v) := fun s hs => by
  have hne : s ≠ r := by
    rintro rfl
    exact hs hr
  rw [Function.update_of_ne hne]
  exact h s hs

end PortCodec.X86

namespace PortCodec.Program

open X86

variable {c : Site} {t : Target} {q : Machine → Prop} {R : Register → ℕ} {f : Flags} {M : ℕ → UInt8}
  {a b x : ℕ} {rest : List Item} {text : Bytes}

@[simp] theorem text_ne (t : Target) : t.frame.text ≠ .rax ∧ t.frame.text ≠ .rcx ∧
    t.frame.text ≠ .rdx ∧ t.frame.text ≠ .rsp ∧ t.frame.text ≠ t.frame.state ∧
    t.frame.text ≠ t.frame.start := by
  unfold Target.frame Frame.of
  split_ifs <;> decide

/-- Code of a target at a site of its mode. -/
structure Fitting (c : Site) (t : Target) : Prop where
  sound : c.Sound
  mode : c.guard.mode = t.mode

theorem Fitting.space (h : Fitting c t) : c.guard.space = t.pointer.span := by
  simp only [Guard.space, h.mode, Target.pointer]

theorem Fitting.word_eq (h : Fitting c t) : c.word = t.pointer.size := by
  rw [Site.word, h.mode]
  rfl

theorem Fitting.isWide (_ : Fitting c t) : t.pointer.IsWide := t.mode.isWide_pointer

/-- The next byte of the line is loaded. -/
theorem Lies.loadText {r : Register} {y : UInt8} {more : Bytes}
    (h : Lies c a (.code (.loadZero r .byte t.textByte) :: rest) b) (hc : Fitting c t)
    (hM : c.Intact M) (hx : c.Spells (R t.frame.text) (y :: more))
    (after : ∀ f k, Lies c k rest b → Eventually c.guard q ⟨Function.update R r y.toNat, f, M, k⟩) :
    Eventually c.guard q ⟨R, f, M, a⟩ := by
  obtain ⟨hlt, hr, hw, hy, -⟩ := hx
  refine h.sets hc.sound hM (.inl rfl) ?_ (fun k => ⟨f, ?_⟩) fun k f hk => after f k hk
  · rintro _ ⟨⟩
    exact fits_pointer (d := 0) (by decide)
  · have := @execute_loadByte R f M r t.frame.text c.guard c.place 0 hlt hr k
    rwa [Nat.add_zero, hM _ hw, hy] at this

/-- A register moves on by one. -/
theorem Lies.count {r : Register} (h : Lies c a (.code (.inc t.pointer r) :: rest) b)
    (hc : Fitting c t) (hM : c.Intact M) (hx : R r = x) (hlt : x + 1 < c.guard.space)
    (after : ∀ f k, Lies c k rest b → Eventually c.guard q ⟨Function.update R r (x + 1), f, M, k⟩) :
    Eventually c.guard q ⟨R, f, M, a⟩ := by
  refine h.sets hc.sound hM trivial (by simp [Instruction.memory?]) (fun k => ?_)
    fun k f hk => after f k hk
  have := @execute_inc R f M t.pointer r c.guard c.place hc.isWide k
  rwa [← hc.space, hx, Nat.mod_eq_of_lt hlt] at this

/-- The text register moves on. -/
theorem Lies.advance (h : Lies c a (.code (.inc t.pointer t.frame.text) :: rest) b)
    (hc : Fitting c t) (hM : c.Intact M) (hx : R t.frame.text + 1 < c.guard.space)
    (after : ∀ f k, Lies c k rest b →
      Eventually c.guard q ⟨Function.update R t.frame.text (R t.frame.text + 1), f, M, k⟩) :
    Eventually c.guard q ⟨R, f, M, a⟩ :=
  h.count hc hM rfl hx after

/-- The distance of two registers goes to the first one. -/
theorem Lies.distance {r s : Register} {n : ℕ}
    (h : Lies c a (.code (.mov t.pointer (.register .rax) r) ::
      .code (.alu .sub t.pointer .rax s) :: rest) b)
    (hc : Fitting c t) (hM : c.Intact M) (hs : s ≠ .rax) (hx : R s = x) (hr : R r = x + n)
    (hlt : x + n < c.guard.space)
    (after : ∀ f k, Lies c k rest b → Eventually c.guard q ⟨Function.update R .rax n, f, M, k⟩) :
    Eventually c.guard q ⟨R, f, M, a⟩ := by
  refine h.sets hc.sound hM trivial (by simp [Instruction.memory?, Operand.memory?])
    (fun k => ⟨f, execute_mov hc.isWide k⟩) fun k f hk => ?_
  refine hk.sets hc.sound hM (show _ < 8 by decide) (by simp [Instruction.memory?])
    (fun k => execute_sub hc.isWide k) fun k f hk => ?_
  have hdistance : (x + n + c.guard.space - x) % c.guard.space = n := by
    rw [show x + n + c.guard.space - x = n + c.guard.space by omega, Nat.add_mod_right,
      Nat.mod_eq_of_lt (by omega)]
  rw [Function.update_self, Function.update_of_ne hs, Function.update_idem, hr, hx, ← hc.space,
    Nat.mod_mod, Nat.mod_eq_of_lt hlt, Nat.mod_eq_of_lt (by omega : x < _), hdistance]
  exact after f k hk

/-- The code behind a mark lies where the mark is. -/
theorem Lies.at_mark {items : List Item} {m : Mark} (h : Lies c a items b) (n : ℕ)
    (hn : items.drop n = .mark m :: rest) : Lies c (c.place m.label) rest b := by
  rw [← List.take_append_drop n items, hn] at h
  obtain ⟨k, -, hk⟩ := h.append
  obtain ⟨rfl, hrest⟩ := hk.mark_eq
  exact hrest

/-- A byte in the first register is looked up among bytes. -/
theorem Lies.jumpOn (bs : Bytes) {vs : List ℤ} {m : Mark} {y : UInt8}
    (h : Lies c a (jumpOnByte vs m ++ rest) b) (hvs : vs = bs.map fun y => (y.toNat : ℤ))
    (hc : Fitting c t) (hM : c.Intact M) (hy : R .rax = y.toNat)
    (hit : y ∈ bs → ∀ f, Eventually c.guard q ⟨R, f, M, c.place m.label⟩)
    (miss : y ∉ bs → ∀ f k, Lies c k rest b → Eventually c.guard q ⟨R, f, M, k⟩) :
    Eventually c.guard q ⟨R, f, M, a⟩ := by
  have hiff : ((R .rax % 256 : ℕ) : ℤ) ∈ vs ↔ y ∈ bs := by
    rw [hy, Nat.mod_eq_of_lt y.toNat_lt, hvs]
    simp [UInt8.toNat_inj]
  refine h.jumpAmong hc.sound hM ?_ (fun hmem => hit (hiff.1 hmem)) fun hmem =>
    miss (mt hiff.2 hmem)
  intro v hv
  obtain ⟨z, -, rfl⟩ := List.mem_map.1 (hvs ▸ hv)
  have := z.toNat_lt
  omega

theorem low_byte_eq (y : UInt8) : y.toNat % Width.span .byte = y.toNat :=
  Nat.mod_eq_of_lt (y.toNat_lt.trans_eq (by decide))

theorem low_byte_eq_zero_iff (y : UInt8) : y.toNat % Width.span .byte = 0 ↔ y = 0 := by
  rw [low_byte_eq, ← UInt8.toNat_inj]
  rfl

/-- A byte is compared with another one. -/
theorem Lies.compareByte {cond : Condition} {rel : ℕ → ℕ → Prop} {r : Register}
    {v l : ℤ} {y : UInt8} (z : UInt8) (hrel : cond.Compares rel)
    (h : Lies c a (.code (.aluImmediate .cmp .byte (.register r) v) ::
      .code (.jccShort cond l) :: rest) b) (hv : v = z.toNat) (hc : Fitting c t) (hM : c.Intact M)
    (hr : Machine.isPlain .byte r = true) (hcond : cond.number.toNat < 16) (hy : R r = y.toNat)
    (hit : rel y.toNat z.toNat → ∀ f, Eventually c.guard q ⟨R, f, M, c.place l⟩)
    (miss : ¬ rel y.toNat z.toNat → ∀ f k, Lies c k rest b → Eventually c.guard q ⟨R, f, M, k⟩) :
    Eventually c.guard q ⟨R, f, M, a⟩ := by
  subst hv
  refine Lies.compareJump hrel h hc.sound hM hr (by simp [Width.Holds]) hcond ?_ ?_
  · rw [hy, low_byte_eq, Width.ofInt_byte]
    exact hit
  · rw [hy, low_byte_eq, Width.ofInt_byte]
    exact miss

/-- Skipping a field moves the text register behind the next separator, or to the end of the
line. -/
theorem skipField_run (hc : Fitting c t) (h : Lies c a t.skipField b) (hM : c.Intact M)
    (hs : c.Spells (R t.frame.text) text)
    (after : ∀ R' f k, Lies c k [.code .ret] b → Kept [.rax, t.frame.text] R R' →
      c.Spells (R' t.frame.text) (Line.skipField text) →
      R' t.frame.text + (Line.skipField text).length = R t.frame.text + text.length →
      Eventually c.guard q ⟨R', f, M, k⟩) :
    Eventually c.guard q ⟨R, f, M, a⟩ := by
  have hrax : t.frame.text ≠ .rax := (text_ne t).1
  have hnext : c.place Mark.nextByte.label = a := h.mark_eq.2.mark_eq.1
  have hload := h.mark_eq.2.mark_eq.2
  have hsep : Lies c (c.place Mark.separator.label)
      [.code (.inc t.pointer t.frame.text), .mark .skipped, .code .ret] b := h.at_mark 13 rfl
  have hskipped : Lies c (c.place Mark.skipped.label) [.code .ret] b := h.at_mark 15 rfl
  -- the loop goes on as long as the line does
  induction text generalizing R f with
  | nil => exact hs.elim
  | cons y more ih =>
    refine hload.loadText hc hM hs fun f k hk => ?_
    have hk : Lies c k (jumpOnByte [124] .separator ++ (jumpOnByte [13, 10] .skipped ++
      [.code (.test .byte .rax .rax), .code (.jccShort .equal Mark.skipped.label),
       .code (.inc t.pointer t.frame.text), .code (.jmpShort Mark.nextByte.label),
       .mark .separator, .code (.inc t.pointer t.frame.text), .mark .skipped, .code .ret])) b := hk
    have hy : Function.update R .rax y.toNat .rax = y.toNat := Function.update_self ..
    have htext : Function.update R .rax y.toNat t.frame.text = R t.frame.text :=
      Function.update_of_ne hrax _ _
    have hkept : Kept [.rax, t.frame.text] R (Function.update R .rax y.toNat) :=
      (Kept.refl _ R).update (by simp)
    have hstop (hline : isLineEnd y = true) (hy : y ≠ 124) (f : Flags) :
        Eventually c.guard q
          ⟨Function.update R .rax y.toNat, f, M, c.place Mark.skipped.label⟩ := by
      refine after _ f _ hskipped hkept ?_ ?_ <;> rw [htext] <;>
        simp only [Line.skipField, hy, hline, ↓reduceIte]
      exact hs
    refine Lies.jumpOn [124] hk rfl hc hM hy (fun hit f => ?_) fun miss f k hk => ?_
    · -- a separator is left behind
      obtain rfl : y = 124 := by simpa using hit
      have htail := hs.tail rfl
      refine hsep.advance hc hM (htext ▸ htail.lt) fun f k hk => ?_
      obtain ⟨-, hk⟩ := hk.mark_eq
      refine after _ f _ hk (hkept.update (by simp)) ?_ ?_ <;>
        simp only [Function.update_self, htext, Line.skipField, ↓reduceIte, List.length_cons]
      · exact htail
      · omega
    · have hne : y ≠ 124 := by simpa using miss
      refine Lies.jumpOn [13, 10] hk rfl hc hM hy (fun hit f => ?_) fun miss f k hk => ?_
      · exact hstop (by simp_all [isLineEnd]) hne f
      refine hk.testJump hc.sound hM rfl (fun hzero f => ?_) fun hzero f k hk => ?_
      · rw [hy, low_byte_eq_zero_iff] at hzero
        exact hstop (by simp [isLineEnd, hzero]) hne f
      · rw [hy, ne_eq, low_byte_eq_zero_iff] at hzero
        have hline : isLineEnd y = false := by simp_all [isLineEnd]
        have htail := hs.tail hline
        refine hk.advance hc hM (htext ▸ htail.lt) fun f k hk => ?_
        refine hk.jump hc.sound hM ?_
        rw [hnext]
        refine ih ?_ ?_
        · simpa only [Function.update_self, htext] using htail
        · intro R' f k hk hkept' hs' hlen
          simp only [Function.update_self, htext] at hlen
          refine after R' f k hk ((hkept.update (by simp)).trans hkept') ?_ ?_ <;>
            simp only [Line.skipField, hne, hline, ↓reduceIte, Bool.false_eq_true, List.length_cons]
          · exact hs'
          · omega

section ParseAxis

/-- Blanks are skipped; the byte behind them stays in its register. -/
theorem parseBlanks_run (hc : Fitting c t) (h : Lies c a t.parseAxis b) (hM : c.Intact M)
    (hs : c.Spells (R t.frame.text) text)
    (after : ∀ R' f y more, Kept [.rcx, t.frame.text] R R' → Line.skipBlanks text = y :: more →
      R' .rcx = y.toNat → c.Spells (R' t.frame.text) (y :: more) →
      R' t.frame.text + (y :: more).length = R t.frame.text + text.length →
      Eventually c.guard q ⟨R', f, M, c.place Mark.sign.label⟩) :
    Eventually c.guard q ⟨R, f, M, c.place Mark.blanks.label⟩ := by
  have hrcx : t.frame.text ≠ .rcx := (text_ne t).2.1
  have hload := h.at_mark 3 rfl
  have hblank := h.at_mark 9 rfl
  induction text generalizing R f with
  | nil => exact hs.elim
  | cons y more ih =>
    refine hload.loadText hc hM hs fun f k hk => ?_
    have hy : Function.update R .rcx y.toNat .rcx = y.toNat := Function.update_self ..
    have htext : Function.update R .rcx y.toNat t.frame.text = R t.frame.text :=
      Function.update_of_ne hrcx _ _
    have hkept : Kept [.rcx, t.frame.text] R (Function.update R .rcx y.toNat) :=
      (Kept.refl _ R).update (by simp)
    have hgo (hb : y = 32 ∨ y = 9) (f : Flags) : Eventually c.guard q
        ⟨Function.update R .rcx y.toNat, f, M, c.place Mark.nextBlank.label⟩ := by
      have htail := hs.tail (by rcases hb with rfl | rfl <;> rfl)
      refine hblank.advance hc hM (htext ▸ htail.lt) fun f k hk => ?_
      refine hk.jump hc.sound hM (ih ?_ ?_)
      · simpa only [Function.update_self, htext] using htail
      · intro R' f z zs hkept' hskip hz hs' hlen
        simp only [Function.update_self, htext] at hlen
        refine after R' f z zs ((hkept.update (by simp)).trans hkept') ?_ hz hs' ?_
        · rw [Line.skipBlanks, if_pos hb, hskip]
        · rw [hlen, List.length_cons]
          omega
    refine Lies.compareByte 32 Condition.equal_compares hk rfl hc hM rfl (by decide) hy ?_ ?_
    · intro heq
      exact hgo (.inl (UInt8.toNat_inj.1 heq))
    · intro h32 f k hk
      refine Lies.compareByte 9 Condition.notEqual_compares hk rfl hc hM rfl (by decide) hy ?_ ?_
      · intro h9 f
        have hb : ¬ (y = 32 ∨ y = 9) := by
          rintro (rfl | rfl)
          · exact h32 rfl
          · exact h9 rfl
        refine after _ f y more hkept ?_ hy ?_ ?_
        · rw [Line.skipBlanks, if_neg hb]
        · rw [htext]
          exact hs
        · rw [htext]
      · intro h9 f k hk
        obtain ⟨hplace, -⟩ := hk.mark_eq
        rw [← hplace]
        exact hgo (.inr (UInt8.toNat_inj.1 (not_not.1 h9))) f

/-- A sign is taken; the data register says whether it is a minus. -/
theorem parseSign_run {y : UInt8} {more : Bytes} (hc : Fitting c t) (h : Lies c a t.parseAxis b)
    (hM : c.Intact M) (hs : c.Spells (R t.frame.text) (y :: more)) (hy : R .rcx = y.toNat)
    (hrdx : R .rdx = 0)
    (after : ∀ R' f, Kept [.rdx, t.frame.text] R R' →
      R' .rdx = (if (Decimal.takeSign (y :: more)).1 then 1 else 0) →
      c.Spells (R' t.frame.text) (Decimal.takeSign (y :: more)).2 →
      R' t.frame.text + (Decimal.takeSign (y :: more)).2.length =
        R t.frame.text + (y :: more).length →
      Eventually c.guard q ⟨R', f, M, c.place Mark.digits.label⟩) :
    Eventually c.guard q ⟨R, f, M, c.place Mark.sign.label⟩ := by
  have hne : t.frame.text ≠ .rdx := (text_ne t).2.2.1
  have hsign := h.at_mark 12 rfl
  have hplus := h.at_mark 18 rfl
  have hdigits : ∀ k, Lies c k (t.parseAxis.drop 22) b → c.place Mark.digits.label = k :=
    fun k hk => hk.mark_eq.1
  refine Lies.compareByte 45 Condition.notEqual_compares hsign rfl hc hM rfl (by decide) hy ?_ ?_
  · intro h45 f
    have hminus : y ≠ 45 := fun he => h45 (he ▸ rfl)
    refine Lies.compareByte 43 Condition.notEqual_compares hplus rfl hc hM rfl (by decide) hy ?_ ?_
    · -- no sign at all
      intro h43 f
      have hplus : y ≠ 43 := fun he => h43 (he ▸ rfl)
      have htake : Decimal.takeSign (y :: more) = (false, y :: more) :=
        Decimal.takeSign_cons hminus hplus more
      refine after R f (.refl _ R) ?_ ?_ ?_ <;> rw [htake]
      · exact hrdx
      · exact hs
    · intro h43 f k hk
      obtain rfl : y = 43 := UInt8.toNat_inj.1 (not_not.1 h43)
      have htail := hs.tail rfl
      refine hk.advance hc hM htail.lt fun f k hk => ?_
      rw [← hdigits k hk]
      have htake : Decimal.takeSign (43 :: more) = (false, more) := rfl
      refine after _ f ((Kept.refl _ R).update (by simp)) ?_ ?_ ?_ <;> rw [htake]
      · rw [Function.update_of_ne hne.symm]
        exact hrdx
      · rw [Function.update_self]
        exact htail
      · simp only [Function.update_self, List.length_cons]
        omega
  · intro h45 f k hk
    obtain rfl : y = 45 := UInt8.toNat_inj.1 (not_not.1 h45)
    have htail := hs.tail rfl
    have htake : Decimal.takeSign (45 :: more) = (true, more) := rfl
    refine hk.sets hc.sound hM trivial (by simp [Instruction.memory?])
      (fun k => execute_inc Width.isWide_dword k) fun k f hk => ?_
    have htext (v : ℕ) : Function.update R .rdx v t.frame.text = R t.frame.text :=
      Function.update_of_ne hne _ _
    refine hk.advance hc hM (by rw [htext]; exact htail.lt) fun f k hk => ?_
    refine hk.jump hc.sound hM
      (after _ f (((Kept.refl _ R).update (by simp)).update (by simp)) ?_ ?_ ?_) <;> rw [htake]
    · rw [Function.update_of_ne hne.symm, Function.update_self, hrdx]
      rfl
    · rw [Function.update_self, htext]
      exact htail
    · simp only [Function.update_self, htext, List.length_cons]
      omega

/-- What a byte counts as a digit: more than nine unless it is one. -/
theorem digit_value (y : UInt8) :
    ((y.toNat + 2 ^ 32 - 48) % 2 ^ 32 > 9 ↔ Decimal.isDigitByte y = false) ∧
    (Decimal.isDigitByte y = true → (y.toNat + 2 ^ 32 - 48) % 2 ^ 32 = y.toNat - 48) := by
  have hlt := y.toNat_lt
  have hiff := Decimal.isDigitByte_iff y
  rw [← Bool.not_eq_true, hiff]
  omega

theorem isLineEnd_of_digit {y : UInt8} (h : Decimal.isDigitByte y = true) :
    isLineEnd y = false := by
  by_contra hline
  simp only [isLineEnd, Bool.or_eq_false_iff, decide_eq_false_iff_not, not_and_or, not_not] at hline
  rcases hline with (rfl | rfl) | rfl <;> cases h

/-- Digits are added to the first register, which wraps around. -/
theorem parseDigits_run {n : ℕ} (hc : Fitting c t) (h : Lies c a t.parseAxis b) (hM : c.Intact M)
    (hs : c.Spells (R t.frame.text) text) (hn : R .rax = n % 2 ^ 32)
    (after : ∀ R' f, Kept [.rax, .rcx, t.frame.text] R R' →
      R' .rax = Decimal.addDigits n (text.takeWhile Decimal.isDigitByte) % 2 ^ 32 →
      c.Spells (R' t.frame.text) (text.dropWhile Decimal.isDigitByte) →
      R' t.frame.text + (text.dropWhile Decimal.isDigitByte).length = R t.frame.text + text.length →
      Eventually c.guard q ⟨R', f, M, c.place Mark.parsed.label⟩) :
    Eventually c.guard q ⟨R, f, M, c.place Mark.digits.label⟩ := by
  have hspan : Width.span .dword = 2 ^ 32 := by decide
  obtain ⟨hrax, hrcx, -⟩ := text_ne t
  have hload := h.at_mark 22 rfl
  induction text generalizing R f n with
  | nil => exact hs.elim
  | cons y more ih =>
    have h48 : Width.ofInt .dword 48 = 48 := by decide
    have h9 : Width.ofInt .dword 9 = 9 := by decide
    obtain ⟨habove, hdigit⟩ := digit_value y
    set d := (y.toNat + 2 ^ 32 - 48) % 2 ^ 32 with hd
    refine hload.loadText hc hM hs fun f k hk => ?_
    have hsub (k : ℕ) :=
      @execute_subImmediate (Function.update R .rcx y.toNat) f M .dword .rcx c.guard
      c.place 48 Width.isWide_dword k
    have hylt : y.toNat % 2 ^ 32 = y.toNat := Nat.mod_eq_of_lt (y.toNat_lt.trans (by decide))
    simp only [Function.update_self, Function.update_idem, hspan, h48, hylt, ← hd] at hsub
    refine hk.sets hc.sound hM ⟨by decide, by decide⟩
      (by simp [Instruction.memory?, Operand.memory?]) hsub fun k f hk => ?_
    have hcx : Function.update R .rcx d .rcx % Width.span .dword = d := by
      rw [Function.update_self, hspan]
      exact Nat.mod_mod _ _
    have htext : Function.update R .rcx d t.frame.text = R t.frame.text :=
      Function.update_of_ne hrcx _ _
    have hax : Function.update R .rcx d .rax = R .rax := Function.update_of_ne (by decide) _ _
    have hkept : Kept [.rax, .rcx, t.frame.text] R (Function.update R .rcx d) :=
      (Kept.refl _ R).update (by simp)
    refine Lies.compareJump Condition.above_compares hk hc.sound hM rfl (by decide)
      (by decide) ?_ ?_
    · -- the number ends here
      rw [hcx, h9]
      intro hgt f
      have hno := habove.1 hgt
      refine after _ f hkept ?_ ?_ ?_ <;>
        simp only [htext, hax, List.takeWhile_cons, List.dropWhile_cons, hno, Bool.false_eq_true,
          ↓reduceIte]
      · exact hn
      · exact hs
    · rw [hcx, h9]
      intro hle f k hk
      have hyes : Decimal.isDigitByte y = true := by
        rw [habove] at hle
        simpa using hle
      have htail := hs.tail (isLineEnd_of_digit hyes)
      have hten : Width.toInt .dword (Width.ofInt .dword (10 : ℕ)) = (10 : ℕ) := by decide
      have hvalue : (R .rax * 10 % 2 ^ 32 + d) % 2 ^ 32 = (n * 10 + (y.toNat - 48)) % 2 ^ 32 := by
        rw [hdigit hyes, hn]
        omega
      refine hk.sets hc.sound hM ⟨by decide, by decide⟩ (by simp [Instruction.memory?])
        (fun k => execute_times Width.isWide_dword hten k) fun k f hk => ?_
      refine hk.sets hc.sound hM (show _ < 8 by decide) (by simp [Instruction.memory?])
        (fun k => execute_add Width.isWide_dword k) fun k f hk => ?_
      simp only [Function.update_self, Function.update_idem, hax, hspan,
        Function.update_of_ne (show Register.rcx ≠ .rax by decide), hvalue] at hk ⊢
      refine hk.advance hc hM ?_ fun f k hk =>
        hk.jump hc.sound hM (ih (n := n * 10 + (y.toNat - 48)) ?_ ?_ ?_)
      · rw [Function.update_of_ne hrax, htext]
        exact htail.lt
      · rw [Function.update_self, Function.update_of_ne hrax, htext]
        exact htail
      · rw [Function.update_of_ne hrax.symm, Function.update_self]
      · intro R' f hkept' hacc hs' hlen
        simp only [Function.update_self, Function.update_of_ne hrax, htext] at hlen
        refine after R' f (((hkept.update (by simp)).update (by simp)).trans hkept') ?_ ?_ ?_ <;>
          simp only [List.takeWhile_cons, List.dropWhile_cons, hyes, ↓reduceIte, List.length_cons]
        · exact hacc
        · exact hs'
        · omega

theorem readAxis_parts (text : Bytes) : Line.readAxis text =
    let s := Decimal.takeSign (Line.skipBlanks text)
    let n : ℤ := Decimal.addDigits 0 (s.2.takeWhile Decimal.isDigitByte)
    (Int16.ofInt (if s.1 then -n else n), s.2.dropWhile Decimal.isDigitByte) := by
  rw [Line.readAxis_eq, Line.skipBlanks_eq]
  rfl

theorem toNat_ofInt16 (v : ℤ) : (Int16.ofInt v).toUInt16.toNat = (v % 2 ^ 16).toNat := by
  rw [← UInt16.toNat_toBitVec]
  exact BitVec.toNat_ofInt v

/-- Reading an axis leaves its value in the first register and moves the text register behind it. -/
theorem parseAxis_run (hc : Fitting c t) (h : Lies c a t.parseAxis b) (hM : c.Intact M)
    (hs : c.Spells (R t.frame.text) text)
    (after : ∀ R' f k, Lies c k [.code .ret] b → Kept [.rax, .rcx, .rdx, t.frame.text] R R' →
      R' .rax % 2 ^ 16 = (Line.readAxis text).1.toUInt16.toNat →
      c.Spells (R' t.frame.text) (Line.readAxis text).2 →
      R' t.frame.text + (Line.readAxis text).2.length = R t.frame.text + text.length →
      Eventually c.guard q ⟨R', f, M, k⟩) :
    Eventually c.guard q ⟨R, f, M, a⟩ := by
  have hspan : Width.span .dword = 2 ^ 32 := by decide
  obtain ⟨hrax, hrcx, hrdx, -⟩ := text_ne t
  have hparsed := h.at_mark 31 rfl
  have hsigned : Lies c (c.place Mark.signed.label) [.code .ret] b := h.at_mark 35 rfl
  have hblanks : ∀ k, Lies c k (t.parseAxis.drop 3) b → c.place Mark.blanks.label = k :=
    fun k hk => hk.mark_eq.1
  -- both registers start at zero
  refine h.mark_eq.2.sets hc.sound hM (show _ < 8 by decide) (by simp [Instruction.memory?])
    (fun k => execute_zero Width.isWide_dword k) fun k f hk => ?_
  refine hk.sets hc.sound hM (show _ < 8 by decide) (by simp [Instruction.memory?])
    (fun k => execute_zero Width.isWide_dword k) fun k f hk => ?_
  rw [← hblanks k hk]
  set R₀ := Function.update (Function.update R .rax 0) .rdx 0 with hR₀
  have htext : R₀ t.frame.text = R t.frame.text := by
    rw [hR₀, Function.update_of_ne hrdx, Function.update_of_ne hrax]
  have hkept : Kept [.rax, .rcx, .rdx, t.frame.text] R R₀ :=
    ((Kept.refl _ R).update (by simp)).update (by simp)
  have hax : R₀ .rax = 0 := by
    rw [hR₀, Function.update_of_ne (by decide), Function.update_self]
  have hdx : R₀ .rdx = 0 := Function.update_self ..
  refine parseBlanks_run hc h hM (htext ▸ hs) fun R₁ f y more hk₁ hskip hy hs₁ hlen₁ => ?_
  refine parseSign_run hc h hM hs₁ hy ?_ fun R₂ f hk₂ hminus hs₂ hlen₂ => ?_
  · rw [hk₁ .rdx (by simp [hrdx.symm]; decide), hdx]
  rw [← hskip] at hminus hs₂ hlen₂
  refine parseDigits_run (n := 0) hc h hM hs₂ ?_ fun R₃ f hk₃ hacc hs₃ hlen₃ => ?_
  · rw [hk₂ .rax (by simp [hrax.symm]; decide), hk₁ .rax (by simp [hrax.symm]; decide), hax]
  set s := Decimal.takeSign (Line.skipBlanks text)
  set n := Decimal.addDigits 0 (s.2.takeWhile Decimal.isDigitByte)
  have hparts : Line.readAxis text =
      (Int16.ofInt (if s.1 then -(n : ℤ) else n), s.2.dropWhile Decimal.isDigitByte) :=
    readAxis_parts text
  have hkept₃ : Kept [.rax, .rcx, .rdx, t.frame.text] R R₃ :=
    ((hkept.trans (hk₁.mono (by simp))).trans (hk₂.mono (by simp))).trans (hk₃.mono (by simp))
  have hdx₃ : R₃ .rdx = if s.1 then 1 else 0 := by
    rw [hk₃ .rdx (by simp [hrdx.symm]; decide), hminus]
  have hlen : R₃ t.frame.text + (s.2.dropWhile Decimal.isDigitByte).length =
      R t.frame.text + text.length := by
    rw [hlen₃, hlen₂, hskip, hlen₁, htext]
  refine hparsed.testJump hc.sound hM rfl ?_ ?_
  · intro hzero f
    have hs1 : s.1 = false := by
      cases hsign : s.1 with
      | false => rfl
      | true => simp [hdx₃, hsign, hspan] at hzero
    refine after R₃ f _ hsigned hkept₃ ?_ ?_ ?_ <;> rw [hparts]
    · rw [toNat_ofInt16, hacc, hs1, if_neg Bool.false_ne_true]
      omega
    · exact hs₃
    · exact hlen
  · intro hzero f k hk
    have hs1 : s.1 = true := by
      cases hsign : s.1 with
      | false => simp [hdx₃, hsign] at hzero
      | true => rfl
    refine hk.sets hc.sound hM trivial (by simp [Instruction.memory?])
      (fun k => execute_neg Width.isWide_dword k) fun k f hk => ?_
    obtain ⟨-, hk⟩ := hk.mark_eq
    refine after _ f k hk (hkept₃.update (by simp)) ?_ ?_ ?_ <;> rw [hparts]
    · rw [Function.update_self, toNat_ofInt16, hacc, hs1, hspan, if_pos rfl]
      omega
    · rw [Function.update_of_ne hrax]
      exact hs₃
    · rw [Function.update_of_ne hrax]
      exact hlen

end ParseAxis

end PortCodec.Program
