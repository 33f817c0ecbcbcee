import PortCodec.Proofs.PlanInvariant
import PortCodec.Proofs.Running.Stage

/-! The jump through a table. Both numbers of a control are compared with their bounds before they
are joined, so that the jump finds an entry of the table, whatever the numbers are. -/

namespace PortCodec

structure Layout.Indexed (l : Layout) : Prop where
  length : l.index.length = l.controllers * l.stride
  power : ∃ j, l.stride = 2 ^ j

theorem Layout.plan_indexed (p : Port) : (plan p).Indexed :=
  ⟨plan_index_length p, exists_powerAtLeast _⟩

namespace X86

/-- Code that ends before the address space does is nowhere interrupted. -/
theorem Guard.Holds.plain {g : Guard} {memory : ℕ → UInt8} {a k : ℕ} {bs : Bytes}
    (h : g.Holds memory a bs) (hend : ∀ x, g.executable x = true → x + 1 < g.space)
    (ha : a < g.space)
    (hk : k < bs.length) : g.executable (a + k) = true ∧ memory (a + k) = bs.byteAt k := by
  have hlt : a + k < g.space := by
    induction k with
    | zero => exact ha
    | succ k ih =>
      have hin := (h k (by omega)).1
      rw [Nat.mod_eq_of_lt (ih (by omega))] at hin
      exact hend _ hin
  have hbyte := h k hk
  rw [Nat.mod_eq_of_lt hlt] at hbyte
  refine ⟨hbyte.1, hbyte.2.trans ?_⟩
  simp [Bytes.byteAt, List.getD_eq_getElem?_getD, hk]

theorem Site.word_pos (c : Site) : 0 < c.word := by
  unfold Site.word
  cases c.guard.mode.pointer <;> decide

def Site.Lists (c : Site) (x : ℕ) (ls : List ℤ) : Prop :=
  ∀ n l, ls[n]? = some l → ∃ bs : Bytes, bs.length = c.word ∧ bs.toNatLE = c.place l ∧
    ∀ i < c.word, c.guard.executable (x + c.word * n + i) = true ∧
      c.memory (x + c.word * n + i) = bs.byteAt i

/-- A field of the size of a pointer holds the address that it leads to. -/
theorem toNatLE_of_leads {c : Site} {bs : Bytes} {p : ℕ} (hlen : bs.length = c.word)
    (h : p = (bs.signed % c.guard.space).toNat) : bs.toNatLE = p := by
  have hspace : Nat.pow 256 bs.length = c.guard.space := by rw [hlen]; rfl
  have hlt : bs.toNatLE < c.guard.space := hspace ▸ toNatLE_lt bs
  have hsigned : bs.signed = (bs.toNatLE : ℤ).bmod c.guard.space := by
    rw [← hspace]
    rfl
  rw [h, hsigned, Int.bmod_emod, Int.emod_eq_of_lt (by omega) (by omega), Int.toNat_natCast]

end X86

namespace Program

open X86

variable {c : Site} {t : Target} {q : Machine → Prop} {R : Register → ℕ} {f : Flags} {M : ℕ → UInt8}
  {a b x y : ℕ} {rest : List Item} {w : Width} {r : Register} {ls : List ℤ} {table done : Mark}

/-- An address that stands in memory, and what comes after it. -/
theorem Lies.address_cons {l : ℤ} (h : Lies c a (.code (.address l) :: rest) b)
    (hmode : c.guard.mode = .bits32 ∨ c.guard.mode = .bits64) : ∃ bs : Bytes, bs.length = c.word ∧
      bs.toNatLE = c.place l ∧ c.guard.Holds c.memory a bs ∧
      Lies c ((a + c.word) % c.guard.space) rest b := by
  cases h with
  | @code _ s field _ _ _ hs hfield hbytes hr h =>
    obtain ⟨patch, rfl, hwidth, habs⟩ :
        ∃ patch, s = ⟨[], some (patch, l), []⟩ ∧ patch.width = c.word ∧
        (patch = .abs32 ∨ patch = .abs64) := by
      cases hs
      rcases hmode with hm | hm <;> rw [Site.word, hm]
      · exact ⟨.abs32, rfl, rfl, .inl rfl⟩
      · exact ⟨.abs64, rfl, rfl, .inr rfl⟩
    have hlen : field.length = c.word := hfield.trans hwidth
    have hsize : X86.Shape.size ⟨[], some (patch, l), []⟩ = c.word := by
      simp [X86.Shape.size, X86.Shape.room, hwidth]
    have hlead : c.place l = (field.signed % c.guard.space).toNat := by
      have := hr patch l rfl
      rcases habs with rfl | rfl <;> exact this
    refine ⟨field, hlen, toNatLE_of_leads hlen hlead, ?_, hsize ▸ h⟩
    simpa [X86.Shape.fill] using hbytes

/-- The entries of a table that lies in memory. -/
theorem Lies.lists (h : Lies c a (ls.map fun l => .code (.address l)) b)
    (hmode : c.guard.mode = .bits32 ∨ c.guard.mode = .bits64)
    (hend : ∀ x, c.guard.executable x = true → x + 1 < c.guard.space) (ha : a < c.guard.space) :
    c.Lists a ls := by
  induction ls generalizing a with
  | nil =>
    intro n l hl
    simp at hl
  | cons l ls ih =>
    obtain ⟨bs, hlen, hplace, hholds, hrest⟩ := h.address_cons hmode
    have hpos := c.word_pos
    have hnext : a + c.word < c.guard.space := by
      have hlast := (hholds.plain hend ha (show c.word - 1 < bs.length by omega)).1
      have := hend _ hlast
      omega
    rw [Nat.mod_eq_of_lt hnext] at hrest
    intro n l' hl
    cases n with
    | zero =>
      obtain rfl : l = l' := by simpa using hl
      exact ⟨bs, hlen, hplace, fun i hi => hholds.plain hend ha (hlen ▸ hi)⟩
    | succ n =>
      have := ih hrest hnext n l' (by simpa using hl)
      rwa [show a + c.word * (n + 1) = a + c.word + c.word * n by rw [Nat.mul_add_one]; omega]

/-- A table inside code that lies in memory. -/
theorem Lies.table_lists {items : List Item} {m : ℕ → Mark} (h : Lies c a items b)
    (ht : t.table table done m <:+: items) (hmode : c.guard.mode = .bits32 ∨ c.guard.mode = .bits64)
    (hend : ∀ x, c.guard.executable x = true → x + 1 < c.guard.space) :
    c.Lists (c.place table.label) (t.labels done m) := by
  obtain ⟨before, behind, rfl⟩ := ht
  obtain ⟨_, h, -⟩ := h.append
  obtain ⟨_, -, h⟩ := h.append
  rw [Target.table_eq] at h
  cases h with
  | align h =>
    obtain ⟨hplace, h⟩ := h.mark_eq
    rw [hplace]
    exact h.lists hmode hend (Nat.mod_lt _ c.guard.space_pos)

section Jump

/-- A number is multiplied by a power of two, unless that is one. -/
theorem Lies.shifted {j : ℕ} (h : Lies c a ((if j = 0 then [] else
      [.code (.shl t.pointer r (UInt8.ofNat j))]) ++ rest) b) (hc : Fitting c t) (hM : c.Intact M)
    (hj : j < 32) (hr : R r = x) (hx : x * 2 ^ j < c.guard.space)
    (after : ∀ f k, Lies c k rest b →
      Eventually c.guard q ⟨Function.update R r (x * 2 ^ j), f, M, k⟩) :
    Eventually c.guard q ⟨R, f, M, a⟩ := by
  have hcount : (UInt8.ofNat j).toNat = j := by
    rw [UInt8.toNat_ofNat']
    omega
  have hlt : x < c.guard.space := (Nat.le_mul_of_pos_right x (Nat.two_pow_pos j)).trans_lt hx
  refine h.setsUnlessZero hc.sound hM trivial (by simp [Instruction.memory?]) (fun h0 => ?_)
    (fun h0 k => ?_) fun k f hk => after f k hk
  · rw [h0, Nat.pow_zero, Nat.mul_one, ← hr, Function.update_eq_self]
  · have hshl := @execute_shl R f M t.pointer r c.guard c.place (UInt8.ofNat j) hc.isWide
      (by omega) (by omega) k
    rwa [hcount, hr, ← hc.space, Nat.mod_eq_of_lt hlt, Nat.mod_eq_of_lt hx] at hshl

/-- An entry of a table is loaded. -/
theorem load_entry {n k : ℕ} {l : ℤ} (hc : c.Sound) (hM : c.Intact M) (ht : c.Lists x ls)
    (hl : ls[n]? = some l) (hread : ∀ i < c.word * ls.length, c.guard.readable (x + i) = true)
    (hend : ∀ x, c.guard.executable x = true → x + 1 < c.guard.space) :
    x + c.word * n < c.guard.space ∧
      Machine.load c.guard ⟨R, f, M, k⟩ c.guard.mode.pointer (x + c.word * n) =
        some (c.place l) := by
  obtain ⟨bs, hlen, hplace, hbytes⟩ := ht n l hl
  have hpos := c.word_pos
  have hlast := hend _ (hbytes (c.word - 1) (by omega)).1
  have hn : n < ls.length := (List.getElem?_eq_some_iff.1 hl).1
  have hroom : c.word * n + c.word ≤ c.word * ls.length := by
    rw [← Nat.mul_add_one]
    exact Nat.mul_le_mul_left _ hn
  refine ⟨by omega, ?_⟩
  rw [← hplace]
  refine load_eq hlen (by omega) (fun i hi => ?_) fun i hi => ?_
  · have := hread (c.word * n + i) (by omega)
    rwa [← Nat.add_assoc] at this
  · obtain ⟨hexecutable, hbyte⟩ := hbytes i (hlen ▸ hi)
    rw [hM _ (hc.code _ hexecutable), hbyte]

theorem toNat_emod {s : ℕ} (h : x + y < s) : (((x : ℤ) + y + 0) % s).toNat = x + y := by
  rw [add_zero, ← Int.natCast_add, ← Int.natCast_mod, Int.toNat_natCast, Nat.mod_eq_of_lt h]

/-- The two forms of the jump, with the table's address in a register or in the instruction. -/
theorem through_run {n : ℕ} {l : ℤ} (hc : Fitting c t) (hM : c.Intact M)
    (h : Lies c a ((if t.mode = .bits64 then
        [.code (.lea t.frame.table (.labelled table.label)),
         .code (.jmpMemory (.indexed t.frame.table t.frame.controller 8))]
      else [.code (.jmpMemory (.table table.label t.frame.controller 4))]) ++ rest) b)
    (hn : R t.frame.controller = n) (ht : c.Lists (c.place table.label) ls) (hl : ls[n]? = some l)
    (hread : ∀ i < c.word * ls.length, c.guard.readable (c.place table.label + i) = true)
    (hjump : ∀ n < ls.length, c.guard.jumps (c.place table.label + c.word * n) = true)
    (hend : ∀ x, c.guard.executable x = true → x + 1 < c.guard.space)
    (after : ∀ R' f, Kept [t.frame.table] R R' → Eventually c.guard q ⟨R', f, M, c.place l⟩) :
    Eventually c.guard q ⟨R, f, M, a⟩ := by
  have hload (R : Register → ℕ) (f : Flags) (k : ℕ) :=
    @load_entry c R f M (c.place table.label) ls n k l hc.sound hM ht hl hread hend
  have hlt := (hload R f 0).1
  have hjumps := hjump n (List.getElem?_eq_some_iff.1 hl).1
  have hmul : n ≤ c.word * n := Nat.le_mul_of_pos_left n c.word_pos
  have hnmod : n % c.guard.mode.pointer.span = n :=
    Nat.mod_eq_of_lt (show n < c.guard.space by omega)
  have hplain (x : Memory) (hx : x.displacement = 0) : x.Fits ∧ x.IsPlain :=
    ⟨by simp [Memory.Fits, hx], fun _ => hx⟩
  have hmode : t.mode = .bits32 ∨ t.mode = .bits64 := hc.mode ▸ hc.sound.mode
  have hword := hc.word_eq
  unfold Target.frame at h hn after
  unfold Target.pointer at hword
  rcases hmode with hm | hm <;> rw [hm] at h hn after hword
  · have h : Lies c a (.code (.jmpMemory (.table table.label .rdi 4)) :: rest) b := h
    have hn : R .rdi = n := hn
    have haddress (k : ℕ) :
        Machine.address c.guard c.place ⟨R, f, M, k⟩ (.table table.label .rdi 4) =
        c.place table.label + c.word * n := by
      simp only [Machine.address, Memory.table, Machine.get, hn, hnmod]
      rw [Nat.mul_comm, show max 1 (4 : UInt8).toNat = c.word from hword.symm]
      exact toNat_emod hlt
    exact h.jumpThrough hc.sound hM (hplain _ rfl) haddress hjumps (fun k => (hload R f k).2)
      (after R f (.refl _ R))
  · have h : Lies c a (.code (.lea .rcx (.labelled table.label)) ::
      .code (.jmpMemory (.indexed .rcx .r11 8)) :: rest) b := h
    have hn : R .r11 = n := hn
    have htable : c.place table.label % c.guard.mode.pointer.span = c.place table.label :=
      Nat.mod_eq_of_lt (show _ < c.guard.space by omega)
    have hlea (k : ℕ) :
        ∃ f', Machine.execute c.guard c.place ⟨R, f, M, k⟩ (.lea .rcx (.labelled table.label)) =
        some ⟨Function.update R .rcx (c.place table.label), f', M, k⟩ := by
      have haddress : Machine.address c.guard c.place ⟨R, f, M, k⟩ (.labelled table.label) =
          c.place table.label := @toNat_emod (c.place table.label) 0 c.guard.space (by omega)
      refine ⟨f, ?_⟩
      simp only [Machine.execute, haddress, Machine.set_eq,
        c.guard.mode.isWide_pointer.merge, htable]
    refine h.sets hc.sound hM trivial ?_ hlea fun k f hk => ?_
    · rintro _ ⟨⟩
      exact hplain _ rfl
    · have haddress (k : ℕ) : Machine.address c.guard c.place
          ⟨Function.update R .rcx (c.place table.label), f, M, k⟩ (.indexed .rcx .r11 8) =
          c.place table.label + c.word * n := by
        have hne : Register.r11 ≠ .rcx := by decide
        simp only [Machine.address, Memory.indexed, Machine.get, Function.update_self,
          Function.update_of_ne hne, hn, hnmod, htable]
        rw [Nat.mul_comm, show max 1 (8 : UInt8).toNat = c.word from hword.symm]
        exact toNat_emod hlt
      exact hk.jumpThrough hc.sound hM (hplain _ rfl) haddress hjumps (fun k => (hload _ f k).2)
        (after _ f ((Kept.refl _ R).update (List.mem_singleton.2 rfl)))

theorem frame_registers (t : Target) : t.frame.controller ≠ t.frame.control := by
  unfold Target.frame Frame.of
  split_ifs <;> decide

/-- Numbers outside their bounds lead to the end of the routine, others to an entry of the table. -/
theorem dispatch_run (hc : Fitting c t) (hM : c.Intact M) (hl : t.layout.Indexed)
    (hsize : c.word * t.layout.index.length < 2 ^ 31)
    (h : Lies c a (t.dispatch table done ++ rest) b)
    (hx : R t.frame.controller = x) (hlt : x < c.guard.space)
    (hy : R t.frame.control % c.guard.space = y) (ht : c.Lists (c.place table.label) ls)
    (hls : ls.length = t.layout.index.length)
    (hread : ∀ i < c.word * ls.length, c.guard.readable (c.place table.label + i) = true)
    (hjump : ∀ n < ls.length, c.guard.jumps (c.place table.label + c.word * n) = true)
    (hend : ∀ x, c.guard.executable x = true → x + 1 < c.guard.space)
    (out : ¬ (x < t.layout.controllers ∧ y < t.layout.stride) →
      ∀ f, Eventually c.guard q ⟨R, f, M, c.place done.label⟩)
    (hit : x < t.layout.controllers → y < t.layout.stride → ∀ R' f l,
      ls[x * t.layout.stride + y]? = some l → Kept [t.frame.controller, t.frame.table] R R' →
        Eventually c.guard q ⟨R', f, M, c.place l⟩) :
    Eventually c.guard q ⟨R, f, M, a⟩ := by
  obtain ⟨j, hj⟩ := hl.power
  have hpos : 0 < t.layout.stride := hj ▸ Nat.two_pow_pos j
  have hword := c.word_pos
  have hlen : t.layout.index.length < 2 ^ 31 := (Nat.le_mul_of_pos_left _ hword).trans_lt hsize
  have hspace : 2 ^ 32 ≤ c.guard.space := by
    rcases c.guard.space_cases with hs | hs <;> omega
  have hcontrollers : t.layout.controllers ≤ t.layout.index.length :=
    hl.length ▸ Nat.le_mul_of_pos_right _ hpos
  have hbound {n : ℕ} (hn : n < 2 ^ 31) : t.pointer.Holds n ∧ t.pointer.ofInt n = n :=
    ⟨fun _ => ⟨by omega, by omega⟩, Width.ofInt_natCast (by rw [← hc.space]; omega)⟩
  obtain ⟨hholds, hof⟩ := hbound (hcontrollers.trans_lt hlen)
  unfold Target.dispatch at h
  simp only [List.append_assoc, List.cons_append, List.nil_append] at h
  refine h.compareBranch Condition.aboveOrEqual_compares (.inr rfl) hc.sound hM
    (hc.isWide.isPlain _) hholds (by decide) (fun hge => out ?_) fun hge f k hk => ?_
  · rw [hof, ← hc.space, hx, Nat.mod_eq_of_lt hlt] at hge
    omega
  rw [hof, ← hc.space, hx, Nat.mod_eq_of_lt hlt] at hge
  have hstride : t.layout.stride ≤ t.layout.index.length := by
    rw [hl.length]
    exact Nat.le_mul_of_pos_left _ (by omega)
  obtain ⟨hholds', hof'⟩ := hbound (hstride.trans_lt hlen)
  refine hk.compareBranch Condition.aboveOrEqual_compares (.inr rfl) hc.sound hM
    (hc.isWide.isPlain _) hholds' (by decide) (fun hge' => out ?_) fun hge' f k hk => ?_
  · rw [hof', ← hc.space, hy] at hge'
    omega
  rw [hof', ← hc.space, hy] at hge'
  -- the joined number is below the length of the table, so nothing wraps around
  have hslot : x * t.layout.stride + y < t.layout.index.length := by
    have hrow : (x + 1) * t.layout.stride ≤ t.layout.index.length := by
      rw [hl.length]
      exact Nat.mul_le_mul_right _ (by omega)
    rw [Nat.add_one_mul] at hrow
    omega
  have hshift : t.layout.strideShift = j := by rw [Layout.strideShift, hj, Nat.log2_two_pow]
  have hjlt : j < 32 := by
    have : 2 ^ j < 2 ^ 32 := by omega
    exact (Nat.pow_lt_pow_iff_right (by decide)).1 this
  rw [hshift] at hk
  refine hk.shifted hc hM hjlt hx (by rw [← hj]; omega) fun f k hk => ?_
  rw [← hj]
  refine hk.sets hc.sound hM (show _ < 8 by decide) (by simp [Instruction.memory?])
    (fun k => execute_add hc.isWide k) fun k f hk => ?_
  rw [Function.update_self, Function.update_of_ne (frame_registers t).symm, Function.update_idem,
    ← hc.space, Nat.add_mod, hy, Nat.mod_eq_of_lt (show x * t.layout.stride < _ by omega),
    Nat.mod_eq_of_lt (show x * t.layout.stride + y < _ by omega)]
  obtain ⟨l, hentry⟩ : ∃ l, ls[x * t.layout.stride + y]? = some l :=
    ⟨_, List.getElem?_eq_getElem (by omega)⟩
  refine through_run hc hM hk (Function.update_self ..) ht hentry hread hjump hend
    fun R' f hkept => ?_
  refine hit (by omega) (by omega) R' f l hentry ?_
  exact ((Kept.refl _ R).update (by simp)).trans (hkept.mono (by simp))

end Jump

end Program

end PortCodec
