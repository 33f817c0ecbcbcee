import PortCodec.Proofs.Running.Frame

/-! The routine that writes an axis. A division loop puts the digits of the number on the stack,
lowest first, above a zero, and a second loop takes them back and writes them one behind the
other. -/

namespace PortCodec.Decimal

theorem ne_zero_of_mem_natural {n : ℕ} {d : UInt8} (hd : d ∈ natural n) : d ≠ 0 := by
  rintro rfl
  have := isDigitByte_of_mem_natural n 0 hd
  simp [isDigitByte] at this

end PortCodec.Decimal

namespace PortCodec.Program

open X86

/-- The cursor has a register of its own. -/
theorem cursor_ne (t : Target) : t.frame.cursor ≠ .rax ∧ t.frame.cursor ≠ .rcx ∧
    t.frame.cursor ≠ .rdx ∧ t.frame.cursor ≠ .rsp ∧ t.frame.cursor ≠ t.frame.state ∧
    t.frame.cursor ≠ t.frame.text ∧ t.frame.cursor ≠ t.frame.start := by
  unfold Target.frame Frame.of
  split_ifs <;> decide

/-- Numbers stand on the stack from an address on, the top one first. -/
def Piled (c : Site) (M : ℕ → UInt8) : (sp : ℕ) → List ℕ → Prop
  | _, [] => True
  | sp, v :: vs => c.Stores M sp v ∧ Piled c M (sp + c.word) vs

variable {c : Site} {t : Target} {q : Machine → Prop} {R : Register → ℕ} {f : Flags} {M : ℕ → UInt8}
  {a b sp x : ℕ} {rest : List Item}

theorem Piled.congr {M' : ℕ → UInt8} {vs : List ℕ} (h : Piled c M sp vs)
    (hM : ∀ y, sp ≤ y → y < sp + vs.length * c.word → M' y = M y) : Piled c M' sp vs := by
  induction vs generalizing sp with
  | nil => trivial
  | cons v vs ih =>
    have hlen : (v :: vs).length * c.word = vs.length * c.word + c.word := by
      rw [List.length_cons, Nat.add_one_mul]
    rw [hlen] at hM
    refine ⟨fun i hi => ?_, ih h.2 fun y hy hlt => hM y (by omega) (by omega)⟩
    rw [hM _ (by omega) (by omega)]
    exact h.1 i hi

/-- What has been written since memory was as given: text from an address on, and nothing else but a
range of the stack. -/
structure Drafted (M M' : ℕ → UInt8) (low high x : ℕ) (text : Bytes) : Prop where
  lays : Lays M' x text
  others : ∀ y, y < x ∨ x + text.length ≤ y → y < low ∨ high ≤ y → M' y = M y

section Drafted

variable {M' M'' : ℕ → UInt8} {low high : ℕ} {text more : Bytes}

theorem Drafted.of_stack (h : ∀ y, y < low ∨ high ≤ y → M' y = M y) : Drafted M M' low high x [] :=
  ⟨fun i hi => absurd hi (Nat.not_lt_zero i), fun y _ hy => h y hy⟩

theorem Drafted.of_splice : Drafted M (splice M x text) low high x text :=
  ⟨fun _ hi => splice_inside hi, fun _ hy _ => splice_outside hy⟩

theorem Drafted.mono {low' high' : ℕ} (h : Drafted M M' low high x text) (hlow : low' ≤ low)
    (hhigh : high ≤ high') : Drafted M M' low' high' x text :=
  ⟨h.lays, fun y hy hy' => h.others y hy (by omega)⟩

/-- More text goes behind the text, if the stack is elsewhere. -/
theorem Drafted.append (h : Drafted M M' low high x text)
    (h' : Drafted M' M'' low high (x + text.length) more)
    (hapart : x + text.length ≤ low ∨ high ≤ x) : Drafted M M'' low high x (text ++ more) where
  lays := by
    intro i hi
    rw [List.length_append] at hi
    by_cases htext : i < text.length
    · rw [h'.others _ (by omega) (by omega), h.lays i htext]
      simp [Bytes.byteAt, List.getElem?_append_left htext]
    · obtain ⟨k, rfl⟩ : ∃ k, i = text.length + k := ⟨i - text.length, by omega⟩
      rw [← Nat.add_assoc, h'.lays k (by omega)]
      simp [Bytes.byteAt, List.getElem?_append_right]
  others := by
    intro y hy hy'
    rw [List.length_append] at hy
    rw [h'.others y (by omega) hy', h.others y (by omega) hy']

end Drafted

/-- A byte is put where a register points. -/
theorem Lies.putByte {r : Register} {y : UInt8} {v : ℤ} (hv : v = y.toNat)
    (h : Lies c a (.code (.movImmediate .byte (.memory (.pointer r 0)) v) :: rest) b)
    (hc : Fitting c t) (hM : c.Intact M) (hx : R r = x) (hlt : x < c.guard.space)
    (hw : c.guard.writable x = true)
    (after : ∀ k, c.Intact (splice M x [y]) → Lies c k rest b →
      Eventually c.guard q ⟨R, f, splice M x [y], k⟩) :
    Eventually c.guard q ⟨R, f, M, a⟩ := by
  subst hv hx
  refine h.next hc.sound hM (fun hq => absurd hq (by decide)) ?_ fun k _ hk =>
    ⟨_, @execute_storeByte R f M r c.guard c.place 0 y hlt hw k, ?_⟩
  · rintro _ ⟨⟩
    exact fits_pointer (d := 0) (by decide)
  · refine after k (intact_splice hM fun i hi => ?_) hk
    obtain rfl : i = 0 := by simpa using hi
    exact hw

section Division

/-- The last digit of a number goes on top of the stack, and the others are left. -/
theorem digit_run {n : ℕ} (hc : Fitting c t) (h : Lies c a t.formatAxis b) (hM : c.Intact M)
    (hn : R .rax = n) (hlt : n < 2 ^ 32) (hten : R .rcx = 10) (hsp : R .rsp = sp)
    (hlow : c.word ≤ sp) (hhigh : sp < c.guard.space) (howns : c.Owns (sp - c.word) c.word)
    (after : ∀ R' f M' k, Kept [.rax, .rdx, .rsp] R R' → R' .rax = n / 10 → R' .rsp = sp - c.word →
      c.Intact M' → c.Stores M' (sp - c.word) (Decimal.digit n).toNat →
      (∀ y, y < sp - c.word ∨ sp ≤ y → M' y = M y) → Lies c k (t.formatAxis.drop 18) b →
      Eventually c.guard q ⟨R', f, M', k⟩) :
    Eventually c.guard q ⟨R, f, M, c.place Mark.divide.label⟩ := by
  have hspan : Width.span .dword = 2 ^ 32 := by decide
  refine (h.at_mark 13 rfl).sets hc.sound hM (show _ < 8 by decide) (by simp [Instruction.memory?])
    (fun k => execute_zero Width.isWide_dword k) fun k f hk => ?_
  refine hk.sets hc.sound hM trivial (by simp [Instruction.memory?])
    (fun k => execute_div (n := n) (d := 10) Width.isWide_dword (Function.update_self ..) ?_
      (hspan ▸ hlt) ?_ (by decide) (by decide) k) fun k f hk => ?_
  · rw [Function.update_of_ne (by decide), hn]
  · rw [Function.update_of_ne (by decide), hten]
  refine hk.sets hc.sound hM ⟨by decide, fun hq => absurd hq (by decide)⟩
    (by simp [Instruction.memory?, Operand.memory?])
    (fun k => execute_addImmediate Width.isWide_dword k) fun k f hk => ?_
  set R₁ := Function.update
    (Function.update (Function.update (Function.update R .rdx 0) .rax (n / 10))
    .rdx (n % 10)) .rdx _ with hR₁
  have hkept : Kept [.rax, .rdx, .rsp] R R₁ :=
    ((((Kept.refl _ R).update (by simp)).update (by simp)).update (by simp)).update (by simp)
  have hrax : R₁ .rax = n / 10 := by
    rw [hR₁, Function.update_of_ne (by decide), Function.update_of_ne (by decide),
      Function.update_self]
  have hrdx : R₁ .rdx % c.guard.space = (Decimal.digit n).toNat := by
    have h48 : Width.ofInt .dword 48 = 48 := by decide
    rw [hR₁, Function.update_self, Function.update_self, Decimal.digit_toNat, hspan, h48]
    rcases c.guard.space_cases with hs | hs <;> rw [hs] <;> omega
  have hsp₁ : R₁ .rsp = sp := by
    rw [hR₁, Function.update_of_ne (by decide), Function.update_of_ne (by decide),
      Function.update_of_ne (by decide), Function.update_of_ne (by decide), hsp]
  refine hk.push hc.sound hM hsp₁ hlow hhigh howns fun k hk => ?_
  rw [hrdx]
  refine after _ f _ k (hkept.update (by simp)) ?_ (Function.update_self ..)
    (intact_splice hM fun i hi => (howns i (by simpa using hi)).2)
    (fun i hi => splice_inside (by simpa using hi))
    (fun y hy => splice_outside (by rw [Bytes.littleEndian_length]; omega)) hk
  rw [Function.update_of_ne (by decide), hrax]

/-- All digits of a number go on the stack, the first one on top. -/
theorem divide_run {n : ℕ} {vs : List ℕ} (hc : Fitting c t) (h : Lies c a t.formatAxis b)
    (hM : c.Intact M) (hn : R .rax = n) (hlt : n < 2 ^ 32) (hten : R .rcx = 10) (hsp : R .rsp = sp)
    (hlow : (Decimal.natural n).length * c.word ≤ sp) (hhigh : sp < c.guard.space)
    (howns : c.Owns (sp - (Decimal.natural n).length * c.word)
      ((Decimal.natural n).length * c.word))
    (hvs : Piled c M sp vs)
    (after : ∀ R' f M', Kept [.rax, .rdx, .rsp] R R' →
      R' .rsp = sp - (Decimal.natural n).length * c.word → c.Intact M' →
      Piled c M' (sp - (Decimal.natural n).length * c.word)
        ((Decimal.natural n).map (·.toNat) ++ vs) →
      (∀ y, y < sp - (Decimal.natural n).length * c.word ∨ sp ≤ y → M' y = M y) →
      Eventually c.guard q ⟨R', f, M', c.place Mark.output.label⟩) :
    Eventually c.guard q ⟨R, f, M, c.place Mark.divide.label⟩ := by
  have hspan : Width.span .dword = 2 ^ 32 := by decide
  induction n using Nat.strong_induction_on generalizing R f M sp vs with
  | _ n ih =>
    set k := (Decimal.natural (n / 10)).length * c.word with hk
    have hlen : (Decimal.natural n).length * c.word = if n < 10 then c.word else k + c.word := by
      conv_lhs => rw [Decimal.natural]
      split_ifs
      · simp
      · rw [List.length_append, List.length_singleton, Nat.add_one_mul]
    have hword : c.word ≤ (Decimal.natural n).length * c.word := by rw [hlen]; split_ifs <;> omega
    have htop : c.Owns (sp - c.word) c.word := fun i hi => by
      have := howns ((Decimal.natural n).length * c.word - c.word + i) (by omega)
      rwa [show sp - (Decimal.natural n).length * c.word +
        ((Decimal.natural n).length * c.word - c.word + i) = sp - c.word + i by omega] at this
    refine digit_run hc h hM hn hlt hten hsp (by omega) hhigh htop
      fun R₁ f M₁ l hkept hrax hsp₁ hM₁ hdigit hsame hl => ?_
    have hpile : Piled c M₁ (sp - c.word) ((Decimal.digit n).toNat :: vs) := by
      refine ⟨hdigit, ?_⟩
      rw [Nat.sub_add_cancel (by omega)]
      exact hvs.congr fun y hy _ => hsame y (.inr hy)
    have hmod : R₁ .rax % Width.span .dword = n / 10 := by
      rw [hrax, hspan]
      omega
    have hloop : Lies c l (.code (.test .dword .rax .rax) ::
      .code (.jccShort .notEqual Mark.divide.label) :: t.formatAxis.drop 20) b := hl
    refine hloop.testBranch Condition.notEqual_tests (.inl rfl) hc.sound hM₁ rfl (by decide) ?_ ?_
    · -- there are more digits
      rw [hmod]
      intro hne f
      have hten₁ : R₁ .rcx = 10 := (hkept .rcx (by decide)).trans hten
      rw [if_neg (by omega)] at hlen
      rw [hlen] at hlow howns after
      refine ih (n / 10) (by omega) hM₁ hrax (by omega) hten₁ hsp₁ (by omega) (by omega) ?_ hpile ?_
      · intro i hi
        have := howns i (by omega)
        rwa [show sp - c.word - k + i = sp - (k + c.word) + i by omega]
      · intro R' f M' hkept' hsp' hM' hpile' hsame'
        have hnat : Decimal.natural n = Decimal.natural (n / 10) ++ [Decimal.digit n] := by
          conv_lhs => rw [Decimal.natural, if_neg (by omega)]
        rw [show sp - c.word - k = sp - (k + c.word) by omega] at hsp' hpile' hsame'
        refine after R' f M' (hkept.trans hkept') hsp' hM' ?_ fun y hy => ?_
        · rw [hnat]
          simpa using hpile'
        · rw [hsame' y (by omega), hsame y (by omega)]
    · rw [hmod]
      intro hne f l hl
      have hsmall : n < 10 := by omega
      rw [if_pos hsmall] at hlen
      rw [hlen] at after
      obtain ⟨hplace, -⟩ :=
        Lies.mark_eq (show Lies c l (.mark .output :: t.formatAxis.drop 21) b from hl)
      rw [← hplace]
      refine after R₁ f M₁ hkept hsp₁ hM₁ ?_ hsame
      rw [Decimal.natural, if_pos hsmall]
      exact hpile

end Division

section Output

/-- The digits on the stack, down to the zero, are written where the cursor points. -/
theorem output_run {ds : Bytes} (hc : Fitting c t) (h : Lies c a t.formatAxis b) (hM : c.Intact M)
    (hds : ∀ d ∈ ds, d ≠ 0) (hsp : R .rsp = sp) (hx : R t.frame.cursor = x)
    (hhigh : sp + (ds.length + 1) * c.word < c.guard.space)
    (hread : ∀ i < (ds.length + 1) * c.word, c.guard.readable (sp + i) = true)
    (hpile : Piled c M sp (ds.map (·.toNat) ++ [0])) (hlt : x + ds.length < c.guard.space)
    (hw : ∀ i < ds.length, c.guard.writable (x + i) = true)
    (hapart : x + ds.length ≤ sp ∨ sp + (ds.length + 1) * c.word ≤ x)
    (after : ∀ R' f, Kept [.rax, .rsp, t.frame.cursor] R R' →
      R' .rsp = sp + (ds.length + 1) * c.word → R' t.frame.cursor = x + ds.length →
      c.Intact (splice M x ds) →
      Eventually c.guard q ⟨R', f, splice M x ds, c.place Mark.formatted.label⟩) :
    Eventually c.guard q ⟨R, f, M, c.place Mark.output.label⟩ := by
  obtain ⟨hrax, hrcx, hrdx, hrsp, -⟩ := cursor_ne t
  have hpop : Lies c (c.place Mark.output.label) (.code (.pop .rax) ::
    .code (.test .dword .rax .rax) ::
    .code (.jccShort .equal Mark.formatted.label) :: t.formatAxis.drop 24) b := h.at_mark 20 rfl
  have hspan : Width.span .dword = 2 ^ 32 := by decide
  have hspace : 2 ^ 32 ≤ c.guard.space := by rcases c.guard.space_cases with hs | hs <;> omega
  induction ds generalizing R f M sp x with
  | nil =>
    obtain ⟨hzero, -⟩ : Piled c M sp [0] := hpile
    simp only [List.length_nil, Nat.zero_add, Nat.one_mul, Nat.add_zero,
      splice_nil] at hhigh hread after
    refine hpop.pop hc.sound hM hsp hhigh hread hzero (by omega) fun k hk => ?_
    refine hk.testJump hc.sound hM rfl (fun _ f => ?_) fun hne => ?_
    · refine after _ f (((Kept.refl _ R).update (by simp)).update (by simp)) ?_ ?_ hM
      · rw [Function.update_of_ne (by decide), Function.update_self]
      · rw [Function.update_of_ne hrax, Function.update_of_ne hrsp, hx]
    · rw [Function.update_self] at hne
      exact absurd rfl hne
  | cons d ds ih =>
    rw [List.map_cons, List.cons_append] at hpile
    obtain ⟨hdigit, hpile⟩ := hpile
    have hd : d.toNat ≠ 0 := fun hzero => hds d (by simp) (UInt8.toNat_inj.1 hzero)
    have hdlt := d.toNat_lt
    have hlen : ((d :: ds).length + 1) * c.word = (ds.length + 1) * c.word + c.word := by
      rw [List.length_cons, Nat.add_one_mul (ds.length + 1)]
    rw [hlen] at hhigh hread hapart after
    rw [List.length_cons] at hlt hw hapart after
    have hwrite : c.guard.writable x = true := hw 0 (by omega)
    refine hpop.pop hc.sound hM hsp (by omega) (fun i hi => hread i (by omega)) hdigit (by omega)
      fun k hk => ?_
    set R₁ := Function.update (Function.update R .rsp (sp + c.word)) .rax d.toNat with hR₁
    have hrax₁ : R₁ .rax = d.toNat := Function.update_self ..
    have hcursor₁ : R₁ t.frame.cursor = x := by
      rw [hR₁, Function.update_of_ne hrax, Function.update_of_ne hrsp, hx]
    have hsp₁ : R₁ .rsp = sp + c.word := by
      rw [hR₁, Function.update_of_ne (by decide), Function.update_self]
    have hkept₁ : Kept [.rax, .rsp, t.frame.cursor] R R₁ :=
      ((Kept.refl _ R).update (by simp)).update (by simp)
    refine hk.testJump hc.sound hM rfl (fun hzero => ?_) fun _ f k hk => ?_
    · rw [hrax₁, hspan] at hzero
      omega
    have hstore : Lies c k (.code (.mov .byte (.memory (.pointer t.frame.cursor 0)) .rax) ::
      .code (.inc t.pointer t.frame.cursor) :: .code (.jmpShort Mark.output.label) ::
      t.formatAxis.drop 27) b := hk
    have hbyte : Bytes.littleEndian (Width.size .byte) (R₁ .rax % Width.span .byte) = [d] := by
      rw [hrax₁, low_byte_eq, Width.size, Bytes.littleEndian, Nat.mod_eq_of_lt hdlt]
      simp [Bytes.littleEndian]
    refine hstore.next hc.sound hM trivial ?_ fun k _ hk => ⟨_, @execute_store R₁ f M .byte .rax
      t.frame.cursor c.guard c.place 0 rfl ?_ ?_ k, ?_⟩
    · rintro _ ⟨⟩
      exact fits_pointer (d := 0) (by decide)
    · rw [hcursor₁]
      simp only [Width.size]
      omega
    · intro i hi
      obtain rfl : i = 0 := by simp [Width.size] at hi; omega
      rw [hcursor₁]
      exact hwrite
    rw [hbyte, Nat.add_zero, hcursor₁]
    have hM₁ : c.Intact (splice M x [d]) := intact_splice hM fun i hi => by
      obtain rfl : i = 0 := by simpa using hi
      exact hwrite
    refine hk.count hc hM₁ hcursor₁ (by omega) fun f k hk => hk.jump hc.sound hM₁ ?_
    have hsplice : splice (splice M x [d]) (x + 1) ds = splice M x (d :: ds) := splice_append
    have hsp₂ : Function.update R₁ t.frame.cursor (x + 1) .rsp = sp + c.word := by
      rw [Function.update_of_ne hrsp.symm, hsp₁]
    refine ih hM₁ (fun e he => hds e (by simp [he])) hsp₂ (Function.update_self ..) (by omega) ?_ ?_
      (by omega) ?_ (by omega) ?_
    · intro i hi
      have := hread (c.word + i) (by omega)
      rwa [← Nat.add_assoc] at this
    · refine hpile.congr fun y hy hlt => splice_outside ?_
      simp only [List.length_append, List.length_map, List.length_singleton] at hlt ⊢
      omega
    · intro i hi
      have := hw (i + 1) (by omega)
      rwa [show x + 1 + i = x + (i + 1) by omega]
    · intro R' f hkept hsp' hcursor hM'
      rw [hsplice] at hM' ⊢
      refine after R' f ((hkept₁.update (by simp)).trans hkept) ?_ ?_ hM'
      · omega
      · omega

end Output

section FormatAxis

variable {v : Int16}

def axisLead (v : Int16) : Bytes := 32 :: if v.toInt < 0 then [45] else []

theorem axisText_eq (v : Int16) :
    Line.axisText v = axisLead v ++ Decimal.natural v.toInt.natAbs := by
  rw [Line.axisText, Decimal.signed_eq, axisLead, List.cons_append]

/-- The blank and the sign are written, and the number loses its sign. -/
theorem axisLead_run (hc : Fitting c t) (h : Lies c a t.formatAxis b) (hM : c.Intact M)
    (hv : R .rax = Width.ofInt .dword v.toInt) (hsp : R .rsp = sp) (hlow : c.word ≤ sp)
    (hhigh : sp < c.guard.space) (howns : c.Owns (sp - c.word) c.word) (hx : R t.frame.text = x)
    (hlt : x + (axisLead v).length < c.guard.space)
    (hw : ∀ i < (axisLead v).length, c.guard.writable (x + i) = true)
    (hapart : x + (axisLead v).length ≤ sp - c.word ∨ sp ≤ x)
    (after : ∀ R' f M', Kept [.rax, .rsp, t.frame.cursor] R R' → R' .rax = v.toInt.natAbs →
      R' .rsp = sp - c.word → R' t.frame.cursor = x + (axisLead v).length → c.Intact M' →
      c.Stores M' (sp - c.word) (R t.frame.cursor % c.guard.space) →
      Drafted M M' (sp - c.word) sp x (axisLead v) →
      Eventually c.guard q ⟨R', f, M', c.place Mark.positive.label⟩) :
    Eventually c.guard q ⟨R, f, M, a⟩ := by
  obtain ⟨hrax, -, -, hrsp, -, htext, -⟩ := cursor_ne t
  have hspan : Width.span .dword = 2 ^ 32 := by decide
  have hlead : 1 ≤ (axisLead v).length := by simp [axisLead]
  have hmin := v.le_toInt
  have hmax := v.toInt_lt
  have hvalue : (R .rax : ℤ) = v.toInt % 2 ^ 32 := by
    rw [hv, Width.ofInt, hspan]
    omega
  refine h.mark_eq.2.push hc.sound hM hsp hlow hhigh howns fun k hk => ?_
  set M₁ := splice M (sp - c.word) (Bytes.littleEndian c.word (R t.frame.cursor % c.guard.space))
  have hM₁ : c.Intact M₁ := intact_splice hM fun i hi => (howns i (by simpa using hi)).2
  have hdraft₁ : Drafted M M₁ (sp - c.word) sp x [] :=
    .of_stack fun y hy => splice_outside (by simp; omega)
  have hstores₁ : c.Stores M₁ (sp - c.word) (R t.frame.cursor % c.guard.space) :=
    fun i hi => splice_inside (by simpa using hi)
  have hx₁ : Function.update R .rsp (sp - c.word) t.frame.text = x := by
    rw [Function.update_of_ne (text_ne t).2.2.2.1, hx]
  refine Lies.putByte (y := 32) rfl hk hc hM₁ hx₁ (by omega) (hw 0 hlead) fun k hM₂ hk => ?_
  have hdraft₂ : Drafted M (splice M₁ x [32]) (sp - c.word) sp x [32] :=
    hdraft₁.append .of_splice (by simp; omega)
  have hstores₂ : c.Stores (splice M₁ x [32]) (sp - c.word) (R t.frame.cursor % c.guard.space) :=
    fun i hi => (splice_outside (by simp; omega)).trans (hstores₁ i hi)
  refine hk.sets hc.sound hM₂ trivial (by rintro _ ⟨⟩; exact fits_pointer (d := 1) (by decide))
    (fun k => ⟨f, execute_lea (d := 1) (by rw [hx₁]; omega) k⟩) fun k f hk => ?_
  rw [hx₁]
  set R₂ := Function.update (Function.update R .rsp (sp - c.word)) t.frame.cursor (x + 1) with hR₂
  have hkept₂ : Kept [.rax, .rsp, t.frame.cursor] R R₂ :=
    ((Kept.refl _ R).update (by simp)).update (by simp)
  have hrax₂ : R₂ .rax = R .rax := by
    rw [hR₂, Function.update_of_ne hrax.symm, Function.update_of_ne (by decide)]
  have hsp₂ : R₂ .rsp = sp - c.word := by
    rw [hR₂, Function.update_of_ne hrsp.symm, Function.update_self]
  have hcursor₂ : R₂ t.frame.cursor = x + 1 := Function.update_self ..
  refine Lies.testBranch Condition.notSign_tests hk (.inl rfl) hc.sound hM₂ rfl (by decide) ?_ ?_
  · rw [hrax₂, hspan]
    intro hpositive f
    have hnonneg : ¬ v.toInt < 0 := by omega
    have hlead : axisLead v = [32] := by rw [axisLead, if_neg hnonneg]
    rw [hlead] at after
    exact after R₂ f _ hkept₂ (by omega) hsp₂ hcursor₂ hM₂ hstores₂ hdraft₂
  · rw [hrax₂, hspan]
    intro hnegative f k hk
    have hneg : v.toInt < 0 := by omega
    have hlead : axisLead v = [32] ++ [45] := by rw [axisLead, if_pos hneg]; rfl
    rw [hlead] at after hlt hw hapart
    simp only [List.length_append, List.length_singleton] at hlt hw hapart
    refine Lies.putByte (y := 45) rfl hk hc hM₂ hcursor₂ (by omega) (hw 1 (by decide))
      fun k hM₃ hk => ?_
    refine hk.count hc hM₃ hcursor₂ (by omega) fun f k hk => ?_
    refine hk.sets hc.sound hM₃ trivial (by simp [Instruction.memory?])
      (fun k => execute_neg Width.isWide_dword k) fun k f hk => ?_
    obtain ⟨hplace, -⟩ :=
      Lies.mark_eq (show Lies c k (.mark .positive :: t.formatAxis.drop 10) b from hk)
    rw [← hplace]
    refine after _ f _ ((hkept₂.update (by simp)).update (by simp)) ?_ ?_ ?_ hM₃ ?_
      (hdraft₂.append .of_splice (by simp; omega))
    · rw [Function.update_self, Function.update_of_ne hrax.symm, hrax₂, hspan]
      omega
    · rw [Function.update_of_ne (by decide), Function.update_of_ne hrsp.symm, hsp₂]
    · rw [Function.update_of_ne hrax, Function.update_self]
      rfl
    · exact fun i hi => (splice_outside (by simp; omega)).trans (hstores₂ i hi)

/-- A zero goes on the stack, and the divisor to its register. -/
theorem divisor_run (hc : Fitting c t) (h : Lies c a t.formatAxis b) (hM : c.Intact M)
    (hsp : R .rsp = sp) (hlow : c.word ≤ sp) (hhigh : sp < c.guard.space)
    (howns : c.Owns (sp - c.word) c.word)
    (after : ∀ R' f M', Kept [.rcx, .rdx, .rsp] R R' → R' .rcx = 10 → R' .rsp = sp - c.word →
      c.Intact M' → Piled c M' (sp - c.word) [0] → (∀ y, y < sp - c.word ∨ sp ≤ y → M' y = M y) →
      Eventually c.guard q ⟨R', f, M', c.place Mark.divide.label⟩) :
    Eventually c.guard q ⟨R, f, M, c.place Mark.positive.label⟩ := by
  have hten : Width.ofInt .dword 10 % Width.span .dword = 10 := by decide
  refine (h.at_mark 9 rfl).sets hc.sound hM (show _ < 8 by decide) (by simp [Instruction.memory?])
    (fun k => execute_zero Width.isWide_dword k) fun k f hk => ?_
  have hsp₁ : Function.update R .rdx 0 .rsp = sp := by rw [Function.update_of_ne (by decide), hsp]
  refine hk.push hc.sound hM hsp₁ hlow hhigh howns fun k hk => ?_
  rw [Function.update_self, Nat.zero_mod]
  have hM₁ : c.Intact (splice M (sp - c.word) (Bytes.littleEndian c.word 0)) :=
    intact_splice hM fun i hi => (howns i (by simpa using hi)).2
  refine hk.sets hc.sound hM₁ (show Width.Holds .dword _ from fun hq => absurd hq (by decide))
    (by simp [Instruction.memory?, Operand.memory?])
    (fun k => ⟨f, execute_movImmediate Width.isWide_dword k⟩) fun k f hk => ?_
  obtain ⟨hplace, -⟩ :=
    Lies.mark_eq (show Lies c k (.mark .divide :: t.formatAxis.drop 14) b from hk)
  rw [hten, ← hplace]
  refine after _ f _ ((((Kept.refl _ R).update (by simp)).update (by simp)).update (by simp))
    (Function.update_self ..) ?_ hM₁ ⟨fun i hi => splice_inside (by simpa using hi), trivial⟩
    fun y hy => splice_outside (by rw [Bytes.littleEndian_length]; omega)
  rw [Function.update_of_ne (by decide), Function.update_self]

/-- The result is the distance of the cursor from the text; the cursor's register is given back. -/
theorem formatted_run {n old : ℕ} (hc : Fitting c t) (h : Lies c a t.formatAxis b) (hM : c.Intact M)
    (hx : R t.frame.text = x) (hcursor : R t.frame.cursor = x + n) (hlt : x + n < c.guard.space)
    (hsp : R .rsp = sp) (hhigh : sp + c.word < c.guard.space)
    (hread : ∀ i < c.word, c.guard.readable (sp + i) = true) (hold : c.Stores M sp old)
    (holdlt : old < c.guard.space)
    (after : ∀ R' f k, Lies c k [.code .ret] b → Kept [.rax, .rsp, t.frame.cursor] R R' →
      R' .rax = n → R' t.frame.cursor = old → R' .rsp = sp + c.word →
      Eventually c.guard q ⟨R', f, M, k⟩) :
    Eventually c.guard q ⟨R, f, M, c.place Mark.formatted.label⟩ := by
  obtain ⟨hrax, -, -, hrsp, -, htext, -⟩ := cursor_ne t
  have htextrax : t.frame.text ≠ .rax := (text_ne t).1
  have hend : Lies c (c.place Mark.formatted.label)
    (.code (.mov t.pointer (.register .rax) t.frame.cursor) ::
      .code (.alu .sub t.pointer .rax t.frame.text) :: .code (.pop t.frame.cursor) ::
      [.code .ret]) b := h.at_mark 27 rfl
  refine hend.distance hc hM htextrax hx hcursor hlt fun f k hk => ?_
  refine hk.pop hc.sound hM ?_ hhigh hread hold holdlt fun k hk => ?_
  · rw [Function.update_of_ne (by decide), hsp]
  refine after _ f k hk ((((Kept.refl _ R).update (by simp)).update (by simp)).update (by simp)) ?_
    (Function.update_self ..) ?_
  · rw [Function.update_of_ne hrax.symm, Function.update_of_ne (by decide), Function.update_self]
  · rw [Function.update_of_ne hrsp.symm, Function.update_self]

/-- The text of an axis is written, and its length is the result. -/
theorem formatAxis_run (hc : Fitting c t) (h : Lies c a t.formatAxis b) (hM : c.Intact M)
    (hv : R .rax = Width.ofInt .dword v.toInt) (hsp : R .rsp = sp) (hlow : 7 * c.word ≤ sp)
    (hhigh : sp < c.guard.space) (howns : c.Owns (sp - 7 * c.word) (7 * c.word))
    (hx : R t.frame.text = x) (hlt : x + (Line.axisText v).length < c.guard.space)
    (hw : ∀ i < (Line.axisText v).length, c.guard.writable (x + i) = true)
    (hapart : x + (Line.axisText v).length ≤ sp - 7 * c.word ∨ sp ≤ x)
    (after : ∀ R' f M' k, Lies c k [.code .ret] b → Kept [.rax, .rcx, .rdx, t.frame.cursor] R R' →
      R' t.frame.cursor = R t.frame.cursor % c.guard.space → R' .rax = (Line.axisText v).length →
      c.Intact M' → Drafted M M' (sp - 7 * c.word) sp x (Line.axisText v) →
      Eventually c.guard q ⟨R', f, M', k⟩) :
    Eventually c.guard q ⟨R, f, M, a⟩ := by
  obtain ⟨hrax, hrcx, hrdx, hrsp, -, htext, -⟩ := cursor_ne t
  obtain ⟨htextrax, htextrcx, htextrdx, htextrsp, -⟩ := text_ne t
  have hmin := v.le_toInt
  have hmax := v.toInt_lt
  have hfive : (Decimal.natural v.toInt.natAbs).length ≤ 5 := Decimal.length_natural_le (by omega)
  have hdigits : (Decimal.natural v.toInt.natAbs).length * c.word ≤ 5 * c.word :=
    Nat.mul_le_mul_right _ hfive
  have hup : ((Decimal.natural v.toInt.natAbs).length + 1) * c.word =
    (Decimal.natural v.toInt.natAbs).length * c.word + c.word := Nat.add_one_mul ..
  have hlen : (Line.axisText v).length =
      (axisLead v).length + (Decimal.natural v.toInt.natAbs).length := by
    rw [axisText_eq, List.length_append]
  rw [hlen] at hlt hw hapart
  have howned (y : ℕ) (hy : sp - 7 * c.word ≤ y) (hy' : y < sp) :
      c.guard.readable y = true ∧ c.guard.writable y = true := by
    have := howns (y - (sp - 7 * c.word)) (by omega)
    rwa [Nat.add_sub_cancel' hy] at this
  refine axisLead_run hc h hM hv hsp (by omega) hhigh
    (fun i hi => howned _ (by omega) (by omega)) hx (by omega) (fun i hi => hw i (by omega))
    (by omega) fun R₁ f M₁ hkept₁ hrax₁ hsp₁ hcursor₁ hM₁ hstores₁ hdraft₁ => ?_
  refine divisor_run hc h hM₁ hsp₁ (by omega) (by omega)
    (fun i hi => howned _ (by omega) (by omega))
    fun R₂ f M₂ hkept₂ hten hsp₂ hM₂ hpile₂ hsame₂ => ?_
  refine divide_run hc h hM₂ ((hkept₂ .rax (by decide)).trans hrax₁) (by omega) hten hsp₂ (by omega)
    (by omega) (fun i hi => howned _ (by omega) (by omega)) hpile₂
    fun R₃ f M₃ hkept₃ hsp₃ hM₃ hpile₃ hsame₃ => ?_
  have hcursor₃ : R₃ t.frame.cursor = x + (axisLead v).length := by
    rw [hkept₃ _ (by simp [hrax, hrdx, hrsp]), hkept₂ _ (by simp [hrcx, hrdx, hrsp]), hcursor₁]
  refine output_run hc h hM₃ (fun d hd => Decimal.ne_zero_of_mem_natural hd) hsp₃
    hcursor₃ (by omega)
    (fun i hi => (howned _ (by omega) (by omega)).1) hpile₃ (by omega) (fun i hi => ?_) (by omega)
    fun R₄ f hkept₄ hsp₄ hcursor₄ hM₄ => ?_
  · rw [Nat.add_assoc]
    exact hw _ (by omega)
  set M₄ := splice M₃ (x + (axisLead v).length) (Decimal.natural v.toInt.natAbs) with hM₄'
  have hdraft : Drafted M M₄ (sp - 7 * c.word) sp x (Line.axisText v) := by
    rw [axisText_eq]
    have hstack : Drafted M₁ M₃ (sp - 7 * c.word) sp (x + (axisLead v).length) [] :=
      .of_stack fun y hy => (hsame₃ y (by omega)).trans (hsame₂ y (by omega))
    exact (hdraft₁.mono (by omega) le_rfl).append
      (hstack.append .of_splice (by simp; omega)) (by omega)
  have hstores : c.Stores M₄ (sp - c.word) (R t.frame.cursor % c.guard.space) := fun i hi => by
    rw [hM₄', splice_outside (by omega), hsame₃ _ (by omega), hsame₂ _ (by omega)]
    exact hstores₁ i hi
  have hkept : Kept [.rax, .rcx, .rdx, .rsp, t.frame.cursor] R R₄ :=
    (((hkept₁.mono (by simp)).trans (hkept₂.mono (by simp))).trans (hkept₃.mono (by simp))).trans
      (hkept₄.mono (by simp))
  have htext₄ : R₄ t.frame.text = x := by
    rw [hkept _ (by simp [htextrax, htextrcx, htextrdx, htextrsp, htext.symm]), hx]
  have hsp₅ : R₄ .rsp = sp - c.word := by omega
  refine formatted_run hc h hM₄ htext₄ (hcursor₄.trans (Nat.add_assoc ..))
    (by omega) hsp₅ (by omega)
    (fun i hi => (howned _ (by omega) (by omega)).1) hstores (Nat.mod_lt _ c.guard.space_pos)
    fun R₅ f k hk hkept₅ hrax₅ hcursor₅ hsp₆ => ?_
  refine after R₅ f M₄ k hk (fun r hr => ?_) hcursor₅ (hrax₅.trans hlen.symm) hM₄ hdraft
  by_cases hsp' : r = .rsp
  · subst hsp'
    omega
  · simp only [List.mem_cons, List.not_mem_nil, or_false, not_or] at hr
    rw [hkept₅ r (by simp [hr, hsp']), hkept r (by simp [hr, hsp'])]

end FormatAxis

end PortCodec.Program
