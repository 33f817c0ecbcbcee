import PortCodec.Proofs.Access
import PortCodec.Proofs.Running.Deserialize
import PortCodec.Proofs.Running.Dispatch
import PortCodec.Proofs.Running.Writing

/-! Whole calls of the routines that read and write a control. They return, with the value and the
state that the layout gives, for whatever numbers they are called with. -/

namespace PortCodec

/-- The mask of a bit has as many zeros below as the bit's number. -/
theorem Entry.bit_of_bitMask {e : Entry} {n : ℕ} (h : e.mask = Bytes.bitMask n) :
    e.bit = n % 8 := by
  have hall : ∀ i < 8, trailingZeros (UInt8.ofNat (2 ^ i)) = i := by decide
  rw [bit, h, Bytes.bitMask]
  exact hall _ (Nat.mod_lt _ (by decide))

theorem Entry.fetch_of_unstored {e : Entry} (h : e.isStored = false) (st : Bytes) :
    e.fetch st = 0 := by
  simp only [isStored, Kind.isStored, Bool.or_eq_false_iff, decide_eq_false_iff_not] at h
  simp [fetch, h]

theorem Entry.store_of_unstored {e : Entry} (h : e.isStored = false) (st : Bytes) (v : Int16) :
    e.store st v = st := by
  simp only [isStored, Kind.isStored, Bool.or_eq_false_iff, decide_eq_false_iff_not] at h
  simp [store, h]

/-- A mask is put back where it was cleared. -/
theorem Line.setMask_clearMask (st : Bytes) (o : ℕ) (mask : UInt8) :
    setMask (clearMask st o mask) o mask = setMask st o mask := by
  have hbyte (b : UInt8) : b &&& ~~~mask ||| mask = b ||| mask := by
    rw [← UInt8.toBitVec_inj]
    ext i hi
    simp only [UInt8.toBitVec_or, UInt8.toBitVec_and, UInt8.toBitVec_not, BitVec.getElem_or,
      BitVec.getElem_and, BitVec.getElem_not]
    cases b.toBitVec[i] <;> cases mask.toBitVec[i] <;> rfl
  rw [setMask, clearMask, setMask, List.modify_modify_eq]
  exact congrArg (st.modify o) (funext hbyte)

namespace X86

variable {w : Width} {x y : ℕ}

theorem Width.toInt_of_lt (h : 2 * x < w.span) : w.toInt x = x := by
  rw [toInt, Int.bmod_def, Int.emod_eq_of_lt (by omega) (by omega)]
  split <;> omega

theorem Width.toInt_of_nonneg (hx : x < w.span) (h : 0 ≤ w.toInt x) : w.toInt x = x := by
  rw [toInt, Int.bmod_def, Int.emod_eq_of_lt (by omega) (by omega)] at h ⊢
  split <;> omega

end X86

open X86 in
/-- Signed numbers find what the numbers of their bits find, if the index is not too long. -/
theorem Layout.lookup?_toInt {l : Layout} {w : Width} {x y : ℕ} (hx : x < w.span) (hy : y < w.span)
    (hbounds : x < l.controllers → 2 * l.controllers ≤ w.span ∧ 2 * l.stride ≤ w.span) :
    l.lookup? (w.toInt x) (w.toInt y) =
      if x < l.controllers ∧ y < l.stride then l.index[x * l.stride + y]? else none := by
  by_cases hin : x < l.controllers ∧ y < l.stride
  · obtain ⟨hcontrollers, hstride⟩ := hbounds hin.1
    rw [if_pos hin, lookup?, Width.toInt_of_lt (by omega), Width.toInt_of_lt (by omega),
      if_pos (by omega), Int.toNat_natCast, Int.toNat_natCast]
  · rw [if_neg hin, lookup?, if_neg]
    rintro ⟨hxpos, hxlt, hypos, hylt⟩
    rw [Width.toInt_of_nonneg hx hxpos] at hxlt
    rw [Width.toInt_of_nonneg hy hypos] at hylt
    omega

namespace Program

open X86

variable {c : Site} {t : Target} {q : Machine → Prop} {R : Register → ℕ} {f : Flags} {M : ℕ → UInt8}
  {a b x n : ℕ} {rest : List Item} {e : Entry} {st : Bytes}

section Entries

/-- The low half of a number that was extended by its sign. -/
theorem low_word_ofInt (v : Int16) : Width.ofInt .dword v.toInt % 2 ^ 16 = v.toUInt16.toNat := by
  have hspan : Width.span .dword = 2 ^ 32 := by decide
  have hlt : v.toUInt16.toNat < 2 ^ 16 := v.toUInt16.toNat_lt
  have hv : v.toInt = (v.toUInt16.toNat : ℤ).bmod (2 ^ 16) :=
    BitVec.toInt_eq_toNat_bmod v.toUInt16.toBitVec
  rw [Width.ofInt, hspan, hv, Int.bmod_def]
  split <;> omega

/-- A byte that is shifted and cut shows one of its bits. -/
theorem shifted_bit (y j : ℕ) : y / 2 ^ j &&& 1 = if y.testBit j then 1 else 0 := by
  rw [Nat.and_one_is_mod, Nat.testBit_eq_decide_div_mod_eq]
  have := Nat.mod_lt (y / 2 ^ j) (show 0 < 2 by decide)
  split_ifs with h <;> simp at h <;> omega

/-- A number is shifted down, unless by nothing. -/
theorem Lies.halved {r : Register} {y j : ℕ}
    (h : Lies c a ((if j = 0 then [] else [Item.code (.shr .dword r (UInt8.ofNat j))]) ++ rest) b)
    (hc : c.Sound) (hM : c.Intact M) (hj : j < 32) (hr : R r = y) (hy : y < Width.span .dword)
    (after : ∀ f k, Lies c k rest b →
      Eventually c.guard q ⟨Function.update R r (y / 2 ^ j), f, M, k⟩) :
    Eventually c.guard q ⟨R, f, M, a⟩ := by
  have hcount : (UInt8.ofNat j).toNat = j := by
    rw [UInt8.toNat_ofNat']
    omega
  refine h.setsUnlessZero hc hM trivial (by simp [Instruction.memory?]) (fun h0 => ?_)
    (fun h0 k => ?_) fun k f hk => after f k hk
  · rw [h0, Nat.pow_zero, Nat.div_one, ← hr, Function.update_eq_self]
  · have hshr := @execute_shr R f M .dword r c.guard c.place (UInt8.ofNat j) Width.isWide_dword
      (by omega) (by omega) k
    rwa [hcount, hr, Nat.mod_eq_of_lt hy] at hshr

structure Readable (c : Site) (M : ℕ → UInt8) (x n : ℕ) (st : Bytes) : Prop where
  lt : n < 2 ^ 31
  le : x + n ≤ c.guard.space
  readable : ∀ i < n, c.guard.readable (x + i) = true
  shows : ∀ i < n, M (x + i) = st.byteAt i

/-- A button is read. -/
theorem fetchButton_run {m : ℕ} (hc : c.Sound) (hM : c.Intact M) (hst : Readable c M x n st)
    (h : Lies c a (t.readEntry e) b) (hx : R t.frame.state = x) (hkind : e.kind = .button)
    (hoffset : e.offset = m / 8) (hmask : e.mask = Bytes.bitMask m) (hin : m / 8 < n)
    (after : ∀ v f, v % 2 ^ 16 = (e.fetch st).toUInt16.toNat →
      Eventually c.guard q ⟨Function.update R .rax v, f, M, c.place Mark.readEnd.label⟩) :
    Eventually c.guard q ⟨R, f, M, a⟩ := by
  have hlt := hst.lt
  have hle := hst.le
  have h : Lies c a (.code (.loadZero .rax .byte (.pointer t.frame.state e.offset)) ::
      ((if e.bit = 0 then [] else [.code (.shr .dword .rax (UInt8.ofNat e.bit))]) ++
        [.code (.aluImmediate .and .dword (.register .rax) 1),
          .code (.jmp Mark.readEnd.label)])) b := by
    simpa [Target.readEntry, hkind, Target.stateAt] using h
  rw [hoffset, Entry.bit_of_bitMask hmask] at h
  refine h.sets hc hM (.inl rfl) ?_ (fun k => ⟨f, execute_loadByte ?_ ?_ k⟩) fun k f hk => ?_
  · rintro _ ⟨⟩
    exact fits_pointer (by omega)
  · omega
  · rw [hx]
    exact hst.readable _ hin
  rw [hx, hst.shows _ hin]
  set y := (st.byteAt (m / 8)).toNat with hy
  have hbyte : y < Width.span .dword := (st.byteAt (m / 8)).toNat_lt.trans (by decide)
  refine hk.halved hc hM (by omega) (Function.update_self ..) hbyte fun f k hk => ?_
  refine hk.sets hc hM ⟨by decide, by simp [Width.Holds]⟩
    (by simp [Instruction.memory?, Operand.memory?])
    (fun k => execute_andImmediate Width.isWide_dword k) fun k f hk => ?_
  refine hk.jumpFar hc hM ?_
  rw [Function.update_idem, Function.update_idem]
  refine after _ f ?_
  have hone : Width.ofInt .dword 1 = 1 := by decide
  rw [Function.update_self, Nat.mod_eq_of_lt ((Nat.div_le_self _ _).trans_lt hbyte),
    hone, shifted_bit,
    Entry.fetch, if_pos hkind, hoffset, hmask, Line.testMask_bit, Bytes.bitAt, ← hy]
  cases y.testBit (m % 8) <;> rfl

/-- An axis is read. -/
theorem fetchAxis_run (hc : c.Sound) (hM : c.Intact M) (hst : Readable c M x n st)
    (h : Lies c a (t.readEntry e) b) (hx : R t.frame.state = x) (hkind : e.kind ≠ .button)
    (haxis : e.kind.isAxis = true) (hin : e.offset + 1 < n)
    (after : ∀ v f, v % 2 ^ 16 = (e.fetch st).toUInt16.toNat →
      Eventually c.guard q ⟨Function.update R .rax v, f, M, c.place Mark.readEnd.label⟩) :
    Eventually c.guard q ⟨R, f, M, a⟩ := by
  have hlt := hst.lt
  have hle := hst.le
  have h : Lies c a [.code (.loadSign .rax .word (.pointer t.frame.state e.offset)),
      .code (.jmp Mark.readEnd.label)] b := by
    simpa [Target.readEntry, hkind, Target.stateAt] using h
  have hload (k : ℕ) : Machine.load c.guard ⟨R, f, M, k⟩ .word (R t.frame.state + e.offset) =
      some (Bytes.toNatLE [st.byteAt e.offset, st.byteAt (e.offset + 1)]) := by
    rw [hx]
    have hcases {i : ℕ} (hi : i < 2) : i = 0 ∨ i = 1 := by omega
    refine load_eq rfl (by simp; omega) (fun i hi => ?_) fun i hi => ?_
    · rw [Nat.add_assoc]
      exact hst.readable _ (by simp at hi; omega)
    · rw [Nat.add_assoc, hst.shows _ (by simp at hi; omega)]
      rcases hcases hi with rfl | rfl <;> rfl
  refine h.sets hc hM (.inr rfl) ?_ (fun k => ⟨f, execute_loadSign (by omega) (hload k)⟩)
    fun k f hk => ?_
  · rintro _ ⟨⟩
    exact fits_pointer (by omega)
  refine hk.jumpFar hc hM (after _ f ?_)
  rw [toInt_axisAt, low_word_ofInt, Entry.fetch, if_neg hkind, if_pos haxis]

structure Writable (c : Site) (x n : ℕ) : Prop where
  lt : n < 2 ^ 31
  le : x + n ≤ c.guard.space
  owns : c.Owns x n

theorem toUInt16_toNat_eq_zero (v : Int16) : v.toUInt16.toNat = 0 ↔ v = 0 := by
  constructor
  · intro h
    have hzero : v.toUInt16 = 0 := UInt16.toNat_inj.1 h
    rw [← Int16.toBitVec_inj]
    exact congrArg UInt16.toBitVec hzero
  · rintro rfl
    rfl

variable {M₀ : ℕ → UInt8} {v : Int16}

/-- A button is written. -/
theorem storeButton_run (hc : c.Sound) (hM : c.Intact M) (hw : Writable c x n)
    (hst : Stored x n (fun _ => True) M₀ st M) (h : Lies c a (t.writeEntry e) b)
    (hx : R t.frame.state = x) (hv : R t.frame.value % 2 ^ 16 = v.toUInt16.toNat)
    (hkind : e.kind = .button) (hin : e.offset < n)
    (after : ∀ f M', c.Intact M' → Stored x n (fun _ => True) M₀ (e.store st v) M' →
      Eventually c.guard q ⟨R, f, M', c.place Mark.writeEnd.label⟩) :
    Eventually c.guard q ⟨R, f, M, a⟩ := by
  have hlt := hw.lt
  have hle := hw.le
  obtain ⟨hread, hwrite⟩ := hw.owns _ hin
  have h : Lies c a (.code (.aluImmediate .and .byte (.memory (.pointer t.frame.state e.offset))
      e.clearMask.toNat) :: .code (.test .word t.frame.value t.frame.value) ::
      .code (.jcc .equal Mark.writeEnd.label) ::
      .code (.aluImmediate .or .byte (.memory (.pointer t.frame.state e.offset)) e.mask.toNat) ::
      [.code (.jmp Mark.writeEnd.label)]) b := by
    simpa [Target.writeEntry, hkind, Target.stateAt] using h
  have hplain : ∀ y : Memory, y = .pointer t.frame.state e.offset → y.Fits ∧ y.IsPlain := by
    rintro _ rfl
    exact fits_pointer (by omega)
  have hbyte (M : ℕ → UInt8) (hM : c.Intact M) (y : UInt8) :
      c.Intact (splice M (x + e.offset) [y]) :=
    intact_splice hM fun i hi => by
      obtain rfl : i = 0 := by simpa using hi
      exact hwrite
  rw [← hx] at hread hwrite
  refine h.next hc hM ⟨by decide, by simp [Width.Holds]⟩ (by rintro _ ⟨⟩; exact hplain _ rfl)
    fun k _ hk => ?_
  obtain ⟨f', hf'⟩ :=
    @execute_andByte R f M t.frame.state c.guard c.place e.offset e.clearMask (by omega)
    hread hwrite k
  refine ⟨_, hf', ?_⟩
  rw [hx]
  have hM₁ := hbyte M hM (M (x + e.offset) &&& e.clearMask)
  have hst₁ : Stored x n (fun _ => True) M₀ (Line.clearMask st e.offset e.mask)
    (splice M (x + e.offset) [M (x + e.offset) &&& e.clearMask]) := hst.clearMask hin
  have hspan : Width.span .word = 2 ^ 16 := by decide
  refine hk.testBranch Condition.equal_tests (.inr rfl) hc hM₁ rfl (by decide) (fun hzero f => ?_)
    fun hone f k hk => ?_
  · rw [hspan, hv, toUInt16_toNat_eq_zero] at hzero
    refine after f _ hM₁ ?_
    rw [Entry.store, if_pos hkind, hzero]
    exact hst₁
  · rw [hspan, hv, toUInt16_toNat_eq_zero] at hone
    refine hk.next hc hM₁ ⟨by decide, by simp [Width.Holds]⟩ (by rintro _ ⟨⟩; exact hplain _ rfl)
      fun k _ hk => ?_
    obtain ⟨f', hf'⟩ :=
      @execute_orByte R f (splice M (x + e.offset) [M (x + e.offset) &&& e.clearMask])
      t.frame.state c.guard c.place e.offset e.mask (by omega) hread hwrite k
    refine ⟨_, hf', ?_⟩
    rw [hx]
    refine hk.jumpFar hc (hbyte _ hM₁ _) (after f' _ (hbyte _ hM₁ _) ?_)
    rw [Entry.store, if_pos hkind, if_pos (by simpa using hone), ← Line.setMask_clearMask]
    exact hst₁.setMask hin

/-- An axis is written. -/
theorem storeAxis_run (hc : c.Sound) (hM : c.Intact M) (hw : Writable c x n)
    (hst : Stored x n (fun _ => True) M₀ st M) (h : Lies c a (t.writeEntry e) b)
    (hx : R t.frame.state = x) (hv : R t.frame.value % 2 ^ 16 = v.toUInt16.toNat)
    (hkind : e.kind ≠ .button) (haxis : e.kind.isAxis = true) (hin : e.offset + 1 < n)
    (after : ∀ f M', c.Intact M' → Stored x n (fun _ => True) M₀ (e.store st v) M' →
      Eventually c.guard q ⟨R, f, M', c.place Mark.writeEnd.label⟩) :
    Eventually c.guard q ⟨R, f, M, a⟩ := by
  have hlt := hw.lt
  have hle := hw.le
  have hspan : Width.span .word = 2 ^ 16 := by decide
  have hsize : Width.size .word = 2 := rfl
  have h : Lies c a (.code (.mov .word (.memory (.pointer t.frame.state e.offset)) t.frame.value) ::
      [.code (.jmp Mark.writeEnd.label)]) b := by
    simpa [Target.writeEntry, hkind, Target.stateAt] using h
  have hwrite (i : ℕ) (hi : i < 2) : c.guard.writable (x + e.offset + i) = true := by
    rw [Nat.add_assoc]
    exact (hw.owns _ (by omega)).2
  refine h.next hc hM trivial ?_ fun k _ hk => ⟨_, execute_store rfl (by omega) ?_ k, ?_⟩
  · rintro _ ⟨⟩
    exact fits_pointer (by omega)
  · rw [hx]
    exact hwrite
  · rw [hx, hspan, hsize, hv]
    have hM₁ : c.Intact (splice M (x + e.offset) (Bytes.littleEndian 2 v.toUInt16.toNat)) :=
      intact_splice hM (by simpa using hwrite)
    refine hk.jumpFar hc hM₁ (after f _ hM₁ ?_)
    rw [Entry.store, if_neg hkind, if_pos haxis]
    exact hst.setAxis (by omega)

end Entries

section Selection

/-- The code of a stored control is where the table says. -/
theorem entry_isInfix {m : ℕ → Mark} {body : Entry → List Item} {i : ℕ}
    (h : t.layout.index[i]? = some e)
    (hstored : e.isStored = true) : .mark (m i) :: body e <:+: t.entries m body := by
  have hmem : (e, i) ∈ t.layout.index.zipIdx := List.mk_mem_zipIdx_iff_getElem?.2 h
  obtain ⟨before, behind, hsplit⟩ := List.append_of_mem hmem
  unfold Target.entries
  simp only [hsplit, List.flatMap_append, List.flatMap_cons, hstored, ↓reduceIte]
  exact ⟨_, _, List.append_assoc ..⟩

theorem labels_getElem? {done : Mark} {m : ℕ → Mark} (i : ℕ) : (t.labels done m)[i]? =
    t.layout.index[i]?.map fun e => if e.isStored then (m i).label else done.label := by
  simp [Target.labels, List.getElem?_zipIdx]
  rfl

/-- The numbers of a control select its code, or the end of the routine if nothing is stored for
them. -/
theorem select_run {y : ℕ} {table done : Mark} {m : ℕ → Mark} {body : Entry → List Item}
    (hc : Fitting c t) (hM : c.Intact M) (hl : t.layout.Indexed)
    (hsize : c.word * t.layout.index.length < 2 ^ 31) (hcode : ∃ a b, Lies c a t.items b)
    (hend : ∀ x, c.guard.executable x = true → x + 1 < c.guard.space)
    (hread : ∀ i < c.word * t.layout.index.length,
      c.guard.readable (c.place table.label + i) = true)
    (hjump : ∀ n < t.layout.index.length, c.guard.jumps (c.place table.label + c.word * n) = true)
    (htable : t.table table done m <:+: t.items) (hentries : t.entries m body <:+: t.items)
    (h : Lies c a (t.dispatch table done ++ rest) b) (hx : R t.frame.controller = x)
    (hlt : x < c.guard.space) (hy : R t.frame.control % c.guard.space = y)
    (other : (∀ e, t.layout.lookup? (t.pointer.toInt x) (t.pointer.toInt y) = some e →
        e.isStored = false) → ∀ R' f, Kept [t.frame.controller, t.frame.table] R R' →
      Eventually c.guard q ⟨R', f, M, c.place done.label⟩)
    (entry : ∀ e, t.layout.lookup? (t.pointer.toInt x) (t.pointer.toInt y) = some e →
      e.isStored = true → ∀ R' f a b, Kept [t.frame.controller, t.frame.table] R R' →
        Lies c a (body e) b → Eventually c.guard q ⟨R', f, M, a⟩) :
    Eventually c.guard q ⟨R, f, M, a⟩ := by
  obtain ⟨a', b', hcode⟩ := hcode
  have hylt : y < c.guard.space := hy ▸ Nat.mod_lt _ c.guard.space_pos
  have hspace : 2 ^ 32 ≤ c.guard.space := by rcases c.guard.space_cases with hs | hs <;> omega
  have hlen : t.layout.index.length < 2 ^ 31 := (Nat.le_mul_of_pos_left _ c.word_pos).trans_lt hsize
  have hlookup := @Layout.lookup?_toInt t.layout t.pointer x y (hc.space ▸ hlt) (hc.space ▸ hylt)
    fun hpos => by
      obtain ⟨j, hj⟩ := hl.power
      have hcontrollers := Nat.le_mul_of_pos_right t.layout.controllers (hj ▸ Nat.two_pow_pos j)
      have hstride :=
        Nat.le_mul_of_pos_left t.layout.stride (show 0 < t.layout.controllers by omega)
      rw [← hl.length] at hcontrollers hstride
      rw [← hc.space]
      omega
  refine dispatch_run hc hM hl hsize h hx hlt hy (hcode.table_lists htable hc.sound.mode hend)
    (t.length_labels done m) (by rwa [t.length_labels]) (by rwa [t.length_labels]) hend
      (fun hout f => ?_)
    fun hxin hyin R' f l hentry hkept => ?_
  · refine other (fun e he => ?_) R f (.refl _ R)
    rw [hlookup, if_neg hout] at he
    cases he
  · rw [hlookup, if_pos ⟨hxin, hyin⟩] at other entry
    rw [labels_getElem?] at hentry
    obtain ⟨e, he, rfl⟩ := Option.map_eq_some_iff.1 hentry
    by_cases hstored : e.isStored = true
    · obtain ⟨b, hroutine⟩ := hcode.routine ((entry_isInfix he hstored).trans hentries)
      rw [if_pos hstored]
      exact entry e he hstored R' f _ _ hkept hroutine.mark_eq.2
    · rw [if_neg hstored]
      refine other (fun e' he' => ?_) R' f hkept
      obtain rfl := Option.some.inj (he.symm.trans he')
      simpa using hstored

end Selection

/-- The registers that routines for single controls change. -/
def Target.touched (t : Target) : List Register :=
  [.rsp, .rax, t.frame.state, t.frame.controller, t.frame.control, t.frame.table]

namespace Call

variable {k : Call} {m table : Mark} {args : ℕ → ℕ}

theorem touched_saved {r : Register} (hc : k.target.convention ∈ Convention.all)
    (hr : r ∈ k.target.convention.saved) (hframe : r ∉ k.target.frame.saved) :
    r ∉ k.target.touched := by
  have h : ∀ c ∈ Convention.all, ∀ r ∈ c.saved, r ∉ (Target.bare c).frame.saved →
      r ∉ (Target.bare c).touched := by decide
  exact h _ hc r hr hframe

/-- A call to read or to write a control: the state, a controller and a control are passed, and
perhaps a value, the table can be read, and the state is apart from the stack. -/
structure Accesses (k : Call) (m table : Mark) (n : ℕ) (args : ℕ → ℕ) : Prop where
  framed : k.Framed n k.saved
  executable_lt : ∀ x, k.site.guard.executable x = true → x + 1 < k.site.guard.space
  table_lt : k.site.word * k.target.layout.index.length < 2 ^ 31
  reads_table : ∀ i < k.site.word * k.target.layout.index.length,
    k.site.guard.readable (k.site.place table.label + i) = true
  jumps_table : ∀ n < k.target.layout.index.length,
    k.site.guard.jumps (k.site.place table.label + k.site.word * n) = true
  passes : ∀ i, 0 < i → i < n → Passes k.site k.target.convention (k.enters m) i (args i)
  size_lt : k.size < 2 ^ 31
  state_le : args 1 + k.size ≤ k.site.guard.space
  reads_state : ∀ i < k.size, k.site.guard.readable (args 1 + i) = true
  apart : args 1 + k.size ≤ k.top - k.saved ∨ k.top ≤ args 1

/-- Registers inside such a routine. -/
structure Inside (k : Call) (x : ℕ) (R : Register → ℕ) : Prop where
  state : R k.target.frame.state = x
  stackPointer : R .rsp = k.top - k.saved
  kept : Kept k.target.touched k.registers R

structure Asked (k : Call) (args : ℕ → ℕ) (R : Register → ℕ) :
    Prop extends Inside k (args 1) R where
  controller : R k.target.frame.controller = args 2
  control : R k.target.frame.control % k.site.guard.space = args 3

/-- The registers that keep their values while a control is looked up. -/
theorem access_registers (t : Target) : t.frame.state ∉ [t.frame.controller, t.frame.table] ∧
    .rsp ∉ [t.frame.controller, t.frame.table] ∧ .rax ∉ [t.frame.controller, t.frame.table] ∧
    t.frame.value = .rax ∧ t.frame.state ≠ .rax ∧
    .rsp ∉ [t.frame.state, t.frame.controller, t.frame.control, .rax] ∧
    .rax ∉ [t.frame.state, t.frame.controller, t.frame.control] := by
  unfold Target.frame Frame.of
  split_ifs <;> decide

theorem Inside.moved {R' : Register → ℕ} (h : k.Inside x R)
    (hkept : Kept [k.target.frame.controller, k.target.frame.table] R R') : k.Inside x R' := by
  obtain ⟨hstate, hsp, -⟩ := access_registers k.target
  refine ⟨(hkept _ hstate).trans h.state, (hkept _ hsp).trans h.stackPointer,
    h.kept.trans (hkept.mono (by simp [Target.touched]))⟩

theorem Inside.result {v : ℕ} (h : k.Inside x R) : k.Inside x (Function.update R .rax v) := by
  obtain ⟨-, -, -, -, hstate, -⟩ := access_registers k.target
  refine ⟨(Function.update_of_ne hstate _ _).trans h.state,
    (Function.update_of_ne (by decide) _ _).trans h.stackPointer,
      h.kept.update (by simp [Target.touched])⟩

/-- The arguments come to their registers. -/
theorem ask_run {more : List Register} (hk : k.Accesses m table n args)
    (hd : k.target.frame.state :: k.target.frame.controller :: k.target.frame.control :: more ∈
      k.target.wanted) (hmore : more ⊆ [.rax]) (hn : more.length + 3 < n) (hfew : more.length < 2)
    (hM : k.site.Intact M) (hsame : ∀ z, k.top ≤ z → M z = k.site.memory z)
    (hR : Kept [.rsp, .rax] k.registers R) (hsp : R .rsp = k.top - k.saved)
    (h : Lies k.site a (k.target.arguments (k.target.frame.state :: k.target.frame.controller ::
      k.target.frame.control :: more) ++ rest) b)
    (after : ∀ R' f l, k.Asked args R' →
      (∀ r ∈ more.zipIdx 4, R' r.1 % k.site.guard.space = args r.2) →
      Kept (k.target.frame.state :: k.target.frame.controller ::
        k.target.frame.control :: more) R R' →
      Lies k.site l rest b → Eventually k.site.guard q ⟨R', f, M, l⟩) :
    Eventually k.site.guard q ⟨R, f, M, a⟩ := by
  refine arguments_run (v := args) hk.framed.convention hd hk.framed.fitting hM h (fun d hmem => ?_)
    fun R' f l hval hkept hl => ?_
  · obtain ⟨hone, hlt, -⟩ := List.mem_zipIdx hmem
    simp only [List.length_cons] at hlt
    have hd2 : d.2 ∈ [1, 2, 3, 4] := by
      simp only [List.mem_cons, List.not_mem_nil, or_false]
      omega
    exact hk.framed.found hd2 (by omega) (hk.passes d.2 (by omega) (by omega)) hsp hR hsame
  · obtain ⟨-, -, -, -, -, hnotsp, -⟩ := access_registers k.target
    have hsub : k.target.frame.state :: k.target.frame.controller ::
        k.target.frame.control :: more ⊆
        [k.target.frame.state, k.target.frame.controller, k.target.frame.control, .rax] := by
      intro r hr
      simp only [List.mem_cons] at hr ⊢
      rcases hr with hr | hr | hr | hr
      · exact .inl hr
      · exact .inr (.inl hr)
      · exact .inr (.inr (.inl hr))
      · exact .inr (.inr (.inr (.inl (List.mem_singleton.1 (hmore hr)))))
    refine after R' f l ⟨⟨?_, ?_, ?_⟩, ?_, ?_⟩ (fun r hr => ?_) hkept hl
    · exact (hval (_, 1) (by simp)).2 (show 1 ≤ 2 by decide)
    · exact (hkept .rsp fun hmem => hnotsp (hsub hmem)).trans hsp
    · exact (hR.mono (by simp [Target.touched])).trans
        (hkept.mono (List.Subset.trans hsub (by simp [Target.touched])))
    · exact (hval (_, 2) (by simp)).2 le_rfl
    · exact (hval (_, 3) (by simp)).1
    · exact (hval r (by simp [hr])).1

/-- The way out, with the registers of such a routine. -/
theorem exit_run {done : Mark} (hk : k.Framed n k.saved) (hdone : .mark done :: k.target.leave <:+:
      k.target.items) (hM : k.site.Intact M) (hR : k.Inside x R)
    (hsaved : Saved k.site M k.registers k.top k.target.frame.saved)
    (after : ∀ m, k.Left m → m.registers .rax = R .rax → m.memory = M → q m) :
    Eventually k.site.guard q ⟨R, f, M, k.site.place done.label⟩ := by
  obtain ⟨_, _, hcode⟩ := hk.code
  obtain ⟨_, hroutine⟩ := hcode.routine hdone
  exact return_run hk hroutine.mark_eq.2 hM hR.stackPointer hsaved
    (fun r hr hframe => congrArg (· % _) (hR.kept r (touched_saved hk.convention hr hframe))) after

/-- The call has returned the value of a control and changed nothing. -/
structure HasRead (k : Call) (args : ℕ → ℕ) (st : Bytes) (m : Machine) : Prop where
  left : k.Left m
  result : m.registers .rax % 2 ^ 16 = (k.target.layout.read st (k.target.pointer.toInt (args 2))
    (k.target.pointer.toInt (args 3))).toUInt16.toNat
  others : ∀ z, z < k.top - k.saved ∨ k.top ≤ z → m.memory z = k.site.memory z

/-- Reading a control returns its value, and zero if nothing is stored. -/
theorem read_run (hk : k.Accesses .read .readTable 4 args) (hl : k.target.layout.Indexed)
    (hin : ∀ e ∈ k.target.layout.index, e.Within (List.replicate k.size 0))
    (hst : ∀ i < k.size, k.site.memory (args 1 + i) = st.byteAt i) :
    Eventually k.site.guard (k.HasRead args st) (k.enters .read) := by
  obtain ⟨_, _, hcode⟩ := hk.framed.code
  obtain ⟨b, hroutine⟩ := hcode.routine (Target.read_infix _)
  have hroutine : Lies k.site (k.site.place Mark.read.label) k.target.readItems b := hroutine
  simp only [Target.readItems, List.append_assoc, List.cons_append, List.nil_append] at hroutine
  have hfit := hk.framed.fitting
  have hapart := hk.apart
  have hdone : .mark .readEnd :: k.target.leave <:+: k.target.items :=
    List.IsInfix.trans (List.IsSuffix.isInfix ⟨_, List.append_cons ..⟩) (Target.read_infix _)
  have hentries : k.target.entries .readEntry k.target.readEntry <:+: k.target.items :=
    List.IsInfix.trans ⟨_, _, (List.append_assoc ..).symm⟩ (Target.read_infix _)
  refine push_run hk.framed hroutine fun M l hM hsaved hsame hl' => ?_
  refine hl'.sets hfit.sound hM (show _ < 8 by decide) (by simp [Instruction.memory?])
    (fun l => execute_zero Width.isWide_dword l) fun l f hl' => ?_
  refine ask_run hk k.target.wanted_read (by simp) (by simp) (by simp) hM
    (fun z hz => hsame z (.inr hz))
    (((Kept.refl _ _).update (by simp)).update (by simp)) ?_ hl' fun R f l hR _ hkept hl' => ?_
  · rw [Function.update_of_ne (by decide), Function.update_self]
  obtain ⟨-, -, hrax, -, -, -, hnotrax⟩ := access_registers k.target
  have hzero : R .rax = 0 := by rw [hkept _ hnotrax, Function.update_self]
  have hreadable : Readable k.site M (args 1) k.size st :=
    ⟨hk.size_lt, hk.state_le, hk.reads_state, fun i hi => by rw [hsame _ (by omega), hst i hi]⟩
  have hlt : args 2 < k.site.guard.space := by
    have := fetch_lt (hk.passes 2 (by decide) (by decide))
    exact this
  have hfinish {R' : Register → ℕ} {f : Flags} (hR' : k.Inside (args 1) R')
      (hvalue : R' .rax % 2 ^ 16 = (k.target.layout.read st (k.target.pointer.toInt (args 2))
        (k.target.pointer.toInt (args 3))).toUInt16.toNat) :
      Eventually k.site.guard (k.HasRead args st) ⟨R', f, M, k.site.place Mark.readEnd.label⟩ :=
    exit_run hk.framed hdone hM hR' hsaved fun m hleft hresult hmem =>
      ⟨hleft, hresult ▸ hvalue, fun z hz => hmem ▸ hsame z hz⟩
  refine select_run hfit hM hl hk.table_lt ⟨_, _, hcode⟩ hk.executable_lt
    hk.reads_table hk.jumps_table
    (Target.readTable_infix _) hentries hl' hR.controller hlt hR.control
      (fun hnone R' f hkept' => ?_)
    fun e he hstored R' f a b hkept' hbody => ?_
  · refine hfinish (hR.moved hkept') ?_
    rw [hkept' _ hrax, hzero, Layout.read_eq]
    cases hlook : k.target.layout.lookup? (k.target.pointer.toInt (args 2))
        (k.target.pointer.toInt (args 3)) with
    | none => rfl
    | some e => simp only [Entry.fetch_of_unstored (hnone e hlook)]; rfl
  · have hinside := hR.moved hkept'
    have hvalue : k.target.layout.read st (k.target.pointer.toInt (args 2))
        (k.target.pointer.toInt (args 3)) = e.fetch st := by rw [Layout.read_eq, he]
    have hwithin := hin e (List.mem_of_getElem? (Layout.lookup?_eq_some he).2)
    rcases hwithin.cases with ⟨n, hkind, ho, hmask, hn⟩ | ⟨hkind, haxis, ho⟩ | ⟨hkind, haxis⟩
    · refine fetchButton_run hfit.sound hM hreadable hbody hinside.state hkind ho hmask
        (by simpa using hn) fun v f hv => hfinish hinside.result ?_
      rw [Function.update_self, hv, hvalue]
    · refine fetchAxis_run hfit.sound hM hreadable hbody hinside.state hkind haxis
        (by simpa using ho) fun v f hv => hfinish hinside.result ?_
      rw [Function.update_self, hv, hvalue]
    · simp [Entry.isStored, Kind.isStored, hkind, haxis] at hstored

/-- The call has left the state with a control written, and changed nothing else. -/
structure HasWritten (k : Call) (args : ℕ → ℕ) (st : Bytes) (v : Int16) (m : Machine) : Prop where
  left : k.Left m
  stored : ∀ i < k.size, m.memory (args 1 + i) = (k.target.layout.write st
    (k.target.pointer.toInt (args 2)) (k.target.pointer.toInt (args 3)) v).byteAt i
  others : ∀ z, z < args 1 ∨ args 1 + k.size ≤ z → z < k.top - k.saved ∨ k.top ≤ z →
    m.memory z = k.site.memory z

/-- Writing a control leaves the state that the layout gives, whatever else the value has above its
low sixteen bits. -/
theorem write_run {v : Int16} (hk : k.Accesses .write .writeTable 5 args)
    (hl : k.target.layout.Indexed)
    (hin : ∀ e ∈ k.target.layout.index, e.Within (List.replicate k.size 0))
    (hwrites : ∀ i < k.size, k.site.guard.writable (args 1 + i) = true) (hlen : k.size ≤ st.length)
    (hst : ∀ i < k.size, k.site.memory (args 1 + i) = st.byteAt i)
    (hv : args 4 % 2 ^ 16 = v.toUInt16.toNat) :
    Eventually k.site.guard (k.HasWritten args st v) (k.enters .write) := by
  obtain ⟨_, _, hcode⟩ := hk.framed.code
  obtain ⟨b, hroutine⟩ := hcode.routine (Target.write_infix _)
  have hroutine : Lies k.site (k.site.place Mark.write.label) k.target.writeItems b := hroutine
  simp only [Target.writeItems, List.append_assoc, List.cons_append, List.nil_append] at hroutine
  have hfit := hk.framed.fitting
  have hapart := hk.apart
  have hlow := hk.framed.low
  have hdone : .mark .writeEnd :: k.target.leave <:+: k.target.items :=
    List.IsInfix.trans (List.IsSuffix.isInfix ⟨_, List.append_cons ..⟩) (Target.write_infix _)
  have hentries : k.target.entries .writeEntry k.target.writeEntry <:+: k.target.items :=
    List.IsInfix.trans ⟨_, _, (List.append_assoc ..).symm⟩ (Target.write_infix _)
  obtain ⟨-, -, hrax, hvalue, -⟩ := access_registers k.target
  refine push_run hk.framed hroutine fun M l hM hsaved hsame hl' => ?_
  refine ask_run hk k.target.wanted_write (by simp [hvalue]) (by simp) (by simp) hM
    (fun z hz => hsame z (.inr hz)) ((Kept.refl _ _).update (by simp)) (Function.update_self ..) hl'
    fun R f l hR hargs _ hl' => ?_
  have hwritable : Writable k.site (args 1) k.size :=
    ⟨hk.size_lt, hk.state_le, fun i hi => ⟨hk.reads_state i hi, hwrites i hi⟩⟩
  have hstored : Stored (args 1) k.size (fun _ => True) M st M :=
    ⟨hlen, fun i hi => by rw [hsame _ (by omega), hst i hi], fun _ _ _ => rfl⟩
  have hlt : args 2 < k.site.guard.space := fetch_lt (hk.passes 2 (by decide) (by decide))
  have hpassed : R .rax % 2 ^ 16 = v.toUInt16.toNat := by
    have hfour : R k.target.frame.value % k.site.guard.space = args 4 := hargs (_, 4) (by simp)
    have hdvd : 2 ^ 16 ∣ k.site.guard.space := by
      rcases k.site.guard.space_cases with hs | hs <;> rw [hs] <;> decide
    rw [← hv, ← hfour, hvalue, Nat.mod_mod_of_dvd _ hdvd]
  have hfinish {R' : Register → ℕ} {f : Flags} {M' : ℕ → UInt8} (hR' : k.Inside (args 1) R')
      (hM' : k.site.Intact M') (hstored' : Stored (args 1) k.size (fun _ => True) M
        (k.target.layout.write st (k.target.pointer.toInt (args 2))
          (k.target.pointer.toInt (args 3)) v)
        M') : Eventually k.site.guard (k.HasWritten args st v)
        ⟨R', f, M', k.site.place Mark.writeEnd.label⟩ := by
    have hsaved' : Saved k.site M' k.registers k.top k.target.frame.saved := by
      refine hsaved.congr hlow (fun z hz hz' => hstored'.others z ?_ trivial) fun _ _ => rfl
      have hz : k.top - k.saved ≤ z := hz
      omega
    refine exit_run hk.framed hdone hM' hR' hsaved' fun m hleft _ hmem => ⟨hleft, fun i hi => ?_,
      fun z hz hz' => ?_⟩
    · rw [hmem, hstored'.state i hi]
    · rw [hmem, hstored'.others z hz trivial, hsame z hz']
  refine select_run hfit hM hl hk.table_lt ⟨_, _, hcode⟩ hk.executable_lt
    hk.reads_table hk.jumps_table
    (Target.writeTable_infix _) hentries hl' hR.controller hlt hR.control
      (fun hnone R' f hkept' => ?_)
    fun e he hkeeps R' f a b hkept' hbody => ?_
  · refine hfinish (hR.moved hkept') hM ?_
    rw [Layout.write_eq]
    cases hlook : k.target.layout.lookup? (k.target.pointer.toInt (args 2))
        (k.target.pointer.toInt (args 3)) with
    | none => exact hstored
    | some e =>
      simp only [Entry.store_of_unstored (hnone e hlook)]
      exact hstored
  · have hinside := hR.moved hkept'
    have hpassed' : R' k.target.frame.value % 2 ^ 16 = v.toUInt16.toNat := by
      rw [hvalue, hkept' _ hrax, hpassed]
    have hresult : k.target.layout.write st (k.target.pointer.toInt (args 2))
        (k.target.pointer.toInt (args 3)) v = e.store st v := by rw [Layout.write_eq, he]
    rw [hresult] at hfinish
    have hwithin := hin e (List.mem_of_getElem? (Layout.lookup?_eq_some he).2)
    rcases hwithin.cases with ⟨n, hkind, ho, -, hn⟩ | ⟨hkind, haxis, ho⟩ | ⟨hkind, haxis⟩
    · exact storeButton_run hfit.sound hM hwritable hstored hbody hinside.state hpassed' hkind
        (by rw [ho]; simpa using hn) fun f M' => hfinish hinside
    · exact storeAxis_run hfit.sound hM hwritable hstored hbody hinside.state hpassed' hkind haxis
        (by simpa using ho) fun f M' => hfinish hinside
    · simp [Entry.isStored, Kind.isStored, hkind, haxis] at hkeeps

end Call

end Program

end PortCodec
