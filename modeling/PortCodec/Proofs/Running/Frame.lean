import PortCodec.Proofs.Running.Text

/-! The way into a routine and out of it. Registers that have to be kept are put on the stack and
taken back, and the arguments go to the registers that the routine wants them in. -/

namespace PortCodec.Program

open X86

variable {c : Site} {t : Target} {q : Machine → Prop} {R v : Register → ℕ}
  {f : Flags} {M : ℕ → UInt8}
  {a b sp : ℕ} {rest : List Item} {rs : List Register}

theorem intact_splice {x : ℕ} {bs : Bytes} (hM : c.Intact M)
    (hw : ∀ i < bs.length, c.guard.writable (x + i) = true) : c.Intact (splice M x bs) := by
  intro y hy
  by_cases hout : y < x ∨ x + bs.length ≤ y
  · rw [splice_outside hout]
    exact hM y hy
  · obtain ⟨i, rfl⟩ : ∃ i, y = x + i := ⟨y - x, by omega⟩
    rw [hw i (by omega)] at hy
    cases hy

/-- Registers stand on the stack below an address, the first one on top. -/
def Saved (c : Site) (M : ℕ → UInt8) (v : Register → ℕ) : (sp : ℕ) → List Register → Prop
  | _, [] => True
  | sp, r :: rs => c.Stores M (sp - c.word) (v r % c.guard.space) ∧ Saved c M v (sp - c.word) rs

theorem Saved.congr {M' : ℕ → UInt8} {v' : Register → ℕ} (h : Saved c M v sp rs)
    (hsp : rs.length * c.word ≤ sp) (hM : ∀ x, sp - rs.length * c.word ≤ x → x < sp → M' x = M x)
    (hv : ∀ r ∈ rs, v' r = v r) : Saved c M' v' sp rs := by
  induction rs generalizing sp with
  | nil => trivial
  | cons r rs ih =>
    have hlen : (r :: rs).length * c.word = rs.length * c.word + c.word := by
      rw [List.length_cons, Nat.add_one_mul]
    rw [hlen] at hsp hM
    refine ⟨fun i hi => ?_, ih h.2 (by omega) (fun x hx hlt => hM x (by omega) (by omega))
      fun s hs => hv s (by simp [hs])⟩
    rw [hv r (by simp), hM _ (by omega) (by omega)]
    exact h.1 i hi

/-- Registers are saved. -/
theorem pushes_run (hc : c.Sound) (hM : c.Intact M) (hrs : .rsp ∉ rs)
    (h : Lies c a ((rs.map fun r => Item.code (.push r)) ++ rest) b) (hsp : R .rsp = sp)
    (hlow : rs.length * c.word ≤ sp) (hhigh : sp < c.guard.space)
    (howns : c.Owns (sp - rs.length * c.word) (rs.length * c.word))
    (after : ∀ M' k, c.Intact M' → Saved c M' R sp rs →
      (∀ x, x < sp - rs.length * c.word ∨ sp ≤ x → M' x = M x) → Lies c k rest b →
      Eventually c.guard q ⟨Function.update R .rsp (sp - rs.length * c.word), f, M', k⟩) :
    Eventually c.guard q ⟨R, f, M, a⟩ := by
  induction rs generalizing a R M sp with
  | nil =>
    have hself : Function.update R .rsp (sp - ([] : List Register).length * c.word) = R := by
      rw [← hsp, List.length_nil, Nat.zero_mul, Nat.sub_zero, Function.update_eq_self]
    have := after M a hM trivial (fun _ _ => rfl) h
    rwa [hself] at this
  | cons r rs ih =>
    have hlen : (r :: rs).length * c.word = rs.length * c.word + c.word := by
      rw [List.length_cons, Nat.add_one_mul]
    rw [hlen] at hlow howns after
    have hne : .rsp ∉ rs := fun hmem => hrs (by simp [hmem])
    have htop : c.Owns (sp - c.word) c.word := fun i hi => by
      have := howns (rs.length * c.word + i) (by omega)
      rwa [show sp - (rs.length * c.word + c.word) + (rs.length * c.word + i) =
        sp - c.word + i by omega] at this
    refine h.push hc hM hsp (by omega) hhigh htop fun k hk => ?_
    have hM₁ : c.Intact
        (splice M (sp - c.word) (Bytes.littleEndian c.word (R r % c.guard.space))) :=
      intact_splice hM fun i hi => (htop i (by simpa using hi)).2
    refine ih hM₁ hne hk (Function.update_self ..) (by omega) (by omega) ?_ ?_
    · intro i hi
      have := howns i (by omega)
      rwa [show sp - c.word - rs.length * c.word + i =
        sp - (rs.length * c.word + c.word) + i by omega]
    · intro M' k hM' hsaved hsame hk
      rw [Function.update_idem, Nat.sub_sub, Nat.add_comm c.word]
      refine after M' k hM' ⟨fun i hi => ?_, ?_⟩ (fun x hx => ?_) hk
      · rw [hsame _ (by omega)]
        exact splice_inside (by simpa using hi)
      · refine hsaved.congr (by omega) (fun _ _ _ => rfl) fun s hs => ?_
        refine (Function.update_of_ne ?_ _ _).symm
        rintro rfl
        exact hne hs
      · rw [hsame x (by omega), splice_outside (by simp; omega)]

/-- Registers are taken back. -/
theorem pops_run (hc : c.Sound) (hM : c.Intact M) (hrs : .rsp ∉ rs)
    (h : Lies c a ((rs.reverse.map fun r => Item.code (.pop r)) ++ rest) b)
    (hlow : rs.length * c.word ≤ sp) (hsp : R .rsp = sp - rs.length * c.word)
    (hhigh : sp < c.guard.space)
    (hread : ∀ x, sp - rs.length * c.word ≤ x → x < sp → c.guard.readable x = true)
    (hsaved : Saved c M v sp rs)
    (after : ∀ R' k, R' .rsp = sp → (∀ r ∈ rs, R' r = v r % c.guard.space) →
      Kept (.rsp :: rs) R R' → Lies c k rest b → Eventually c.guard q ⟨R', f, M, k⟩) :
    Eventually c.guard q ⟨R, f, M, a⟩ := by
  induction rs generalizing a sp rest with
  | nil => exact after R a (by simpa using hsp) (by simp) (.refl _ R) h
  | cons r rs ih =>
    have hlen : (r :: rs).length * c.word = rs.length * c.word + c.word := by
      rw [List.length_cons, Nat.add_one_mul]
    rw [hlen] at hlow hsp hread
    have hne : .rsp ∉ rs := fun hmem => hrs (by simp [hmem])
    have hr : r ≠ .rsp := fun he => hrs (by simp [he])
    rw [List.reverse_cons, List.map_append, List.append_assoc] at h
    refine ih hne h (by omega) (by rw [hsp]; omega) (by omega)
      (fun x hx hlt => hread x (by omega) (by omega)) hsaved.2 fun R₁ k hsp₁ hval hkept hk => ?_
    refine hk.pop hc hM hsp₁ (by omega) (fun i hi => hread _ (by omega) (by omega)) hsaved.1
      (Nat.mod_lt _ c.guard.space_pos) fun k hk => after _ k ?_ ?_ ?_ hk
    · rw [Function.update_of_ne hr.symm, Function.update_self]
      omega
    · intro s hs
      by_cases hsr : s = r
      · rw [hsr, Function.update_self]
      · have hmem : s ∈ rs := (List.mem_cons.1 hs).resolve_left hsr
        have hssp : s ≠ .rsp := by
          rintro rfl
          exact hne hmem
        rw [Function.update_of_ne hsr, Function.update_of_ne hssp, hval s hmem]
    · exact ((hkept.mono (by simp)).update (by simp)).update (by simp)

section Arguments

variable {R₀ : Register → ℕ} {f₀ : Flags} {M₀ : ℕ → UInt8} {k₀ x y : ℕ}

/-- The bytes of a return address and of those of `n` arguments that are on the stack. -/
def Target.area (t : Target) (n : ℕ) : ℕ :=
  let there := t.convention.arguments.length
  t.pointer.size * (1 + if n ≤ there then 0 else if t.convention.homeSlots then n else n - there)

/-- What the code that calls put where a convention has an argument. -/
def Passes (c : Site) (convention : Convention) (m : Machine) (i x : ℕ) : Prop :=
  m.fetch c.guard c.place c.guard.mode.pointer (convention.argument i 0) = some x

/-- An argument is found without labels. -/
theorem fetch_argument (g : Guard) (place place' : ℤ → ℕ) (m : Machine) (w : Width)
    (convention : Convention) (i : ℕ) (n : ℤ) :
    m.fetch g place w (convention.argument i n) = m.fetch g place' w (convention.argument i n) := by
  unfold Convention.argument
  cases convention.arguments[i]? <;> rfl

/-- The code that brings a value from where it is to a register. -/
def bring (w : Width) (p : Register × Operand) : Instruction :=
  match p.2 with
  | .register s => .mov w (.register p.1) s
  | .memory x => .load w p.1 x

/-- Where the arguments that have to be brought are, in the order in which it is done. -/
def Target.brought (t : Target) (dsts : List Register) : List (Register × Operand) :=
  let moves := t.argumentMoves dsts
  ((Move.order moves.length moves).getD []).map (fun m => (m.dst, .register m.src)) ++
    (dsts.zipIdx 1).filterMap fun (dst, i) =>
      match t.convention.argument i t.frame.saved.length with
      | .register _ => none
      | .memory x => some (dst, .memory x)

/-- Arguments are loaded by bringing them where they are wanted. -/
theorem loadArguments_eq_brought {dsts : List Register} {items : List Item}
    (h : t.loadArguments dsts = some items) :
    items = (t.brought dsts).map fun p => .code (bring t.pointer p) := by
  unfold Target.loadArguments at h
  unfold Target.brought
  cases horder : Move.order (t.argumentMoves dsts).length (t.argumentMoves dsts) with
  | none => simp [horder] at h
  | some ordered =>
    simp only [horder] at h
    rw [← Option.some.inj h]
    simp only [horder, Option.getD_some, List.map_append, List.map_map, List.map_filterMap]
    refine congrArg₂ _ rfl ?_
    unfold Target.argumentLoads
    refine List.filterMap_congr fun p _ => ?_
    dsimp only
    cases t.convention.argument p.2 t.frame.saved.length <;> rfl

theorem arguments_eq (hc : t.convention ∈ Convention.all) {dsts : List Register}
    (hd : dsts ∈ t.wanted) :
    t.arguments dsts = (t.brought dsts).map fun p => .code (bring t.pointer p) :=
  loadArguments_eq_brought (loadArguments_eq hc hd).1

/-- An operand in which a register does not occur. -/
def avoids (r : Register) : Operand → Bool
  | .register s => s ≠ r
  | .memory x => x.base ≠ some r && x.index ≠ some r

/-- Arguments are brought one by one to registers that no later one comes from, and each comes from
where its convention has it; only the third can be in its register already. -/
theorem brought_order : ∀ c ∈ Convention.all, ∀ dsts ∈ (Target.bare c).wanted,
    let t := Target.bare c
    let found (i : ℕ) := c.argument i t.frame.saved.length
    (t.brought dsts).Pairwise (fun p o => p.1 ≠ o.1 ∧ avoids p.1 o.2 = true) ∧
    (∀ p ∈ t.brought dsts, (∃ d ∈ dsts.zipIdx 1, p = (d.1, found d.2)) ∧
      ∀ x ∈ p.2.memory?, x.Fits ∧ x.IsPlain) ∧
    ∀ d ∈ dsts.zipIdx 1, (d.1, found d.2) ∈ t.brought dsts ∨
      2 < d.2 ∧ found d.2 = .register d.1 ∧ d.1 ∉ (t.brought dsts).map (·.1) := by
  decide +kernel

theorem fetch_of_avoids {r : Register} {v k : ℕ} {w : Width} {o : Operand} (h : avoids r o = true) :
    Machine.fetch c.guard c.place ⟨Function.update R r v, f, M, k⟩ w o =
      Machine.fetch c.guard c.place ⟨R, f₀, M, k₀⟩ w o := by
  cases o with
  | register s =>
    have hne : s ≠ r := by simpa [avoids] using h
    simp only [Machine.fetch, Machine.get, Function.update_of_ne hne]
  | memory x =>
    obtain ⟨hbase, hindex⟩ : x.base ≠ some r ∧ x.index ≠ some r := by simpa [avoids] using h
    have haddress : Machine.address c.guard c.place ⟨Function.update R r v, f, M, k⟩ x =
        Machine.address c.guard c.place ⟨R, f₀, M, k₀⟩ x := by
      obtain ⟨base, index, scale, displacement, label⟩ := x
      cases label <;> cases base <;> cases index <;>
        simp_all [Machine.address, Machine.get, Function.update_of_ne]
    simp only [Machine.fetch, haddress, Machine.load]

theorem bring_eq {w : Width} {p : Register × Operand} {v : ℕ} (hw : w.IsWide)
    (hmem : ∀ x ∈ p.2.memory?, x.Fits ∧ x.IsPlain)
    (hv : Machine.fetch c.guard c.place ⟨R, f, M, a⟩ w p.2 = some v) :
    (bring w p).Regular ∧ (∀ x ∈ (bring w p).memory?, x.Fits ∧ x.IsPlain) ∧
      ∀ k, Machine.execute c.guard c.place ⟨R, f, M, k⟩ (bring w p) =
        some ⟨Function.update R p.1 v, f, M, k⟩ := by
  obtain ⟨r, o⟩ := p
  cases o with
  | register s =>
    refine ⟨trivial, by simp [bring, Instruction.memory?, Operand.memory?], fun k => ?_⟩
    have hval : R s % w.span = v := by simpa [Machine.fetch, hw.isPlain, Machine.get] using hv
    exact hval ▸ execute_mov hw k
  | memory x =>
    refine ⟨trivial, hmem, fun k => ?_⟩
    have hload : Machine.load c.guard ⟨R, f, M, k⟩ w
        (Machine.address c.guard c.place ⟨R, f, M, k⟩ x) = some v := hv
    have hlt : v % w.span = v := Nat.mod_eq_of_lt (load_lt hload)
    simp [bring, Machine.execute, hload, Machine.assign, Machine.set_eq, hw.isPlain, hw.merge, hlt]

/-- Values are brought to registers. -/
theorem brings_run {w : Width} {ps : List (Register × Operand)}
    (hmode : c.guard.mode = .bits32 ∨ c.guard.mode = .bits64) (hw : w.IsWide) (hM : c.Stands M)
    (h : Lies c a ((ps.map fun p => Item.code (bring w p)) ++ rest) b)
    (horder : ps.Pairwise fun p o => p.1 ≠ o.1 ∧ avoids p.1 o.2 = true)
    (hmem : ∀ p ∈ ps, ∀ x ∈ p.2.memory?, x.Fits ∧ x.IsPlain)
    (hv : ∀ p ∈ ps, (Machine.fetch c.guard c.place ⟨R, f, M, a⟩ w p.2).isSome)
    (after : ∀ R' f' k,
      (∀ p ∈ ps, Machine.fetch c.guard c.place ⟨R, f, M, a⟩ w p.2 = some (R' p.1)) →
      Kept (ps.map (·.1)) R R' → Lies c k rest b → Eventually c.guard q ⟨R', f', M, k⟩) :
    Eventually c.guard q ⟨R, f, M, a⟩ := by
  induction ps generalizing a R f with
  | nil => exact after R f a (by simp) (.refl _ R) h
  | cons p ps ih =>
    obtain ⟨hp, hps⟩ := List.pairwise_cons.1 horder
    obtain ⟨v, hfetch⟩ := Option.isSome_iff_exists.1 (hv p (by simp))
    obtain ⟨hregular, hplain, hset⟩ := bring_eq hw (hmem p (by simp)) hfetch
    refine h.step hmode hM hregular hplain fun k _ hk => ⟨_, hset k, ?_⟩
    have hlater (o : Register × Operand) (ho : o ∈ ps) : Machine.fetch c.guard c.place
        ⟨Function.update R p.1 v, f, M, k⟩ w o.2 =
          Machine.fetch c.guard c.place ⟨R, f, M, a⟩ w o.2 :=
      fetch_of_avoids (hp o ho).2
    refine ih hk hps (fun o ho => hmem o (by simp [ho])) (fun o ho => ?_)
      fun R' f k hval hkept hk => ?_
    · rw [hlater o ho]
      exact hv o (by simp [ho])
    · refine after R' f k (fun o ho => ?_) ?_ hk
      · rcases List.mem_cons.1 ho with rfl | ho
        · rw [hkept o.1 fun hmem => ?_, Function.update_self, hfetch]
          obtain ⟨o', ho', heq⟩ := List.mem_map.1 hmem
          exact (hp o' ho').1 heq.symm
        · rw [← hlater o ho]
          exact hval o ho
      · exact ((Kept.refl _ R).update (by simp)).trans (hkept.mono (by simp))

theorem area_mono (t : Target) {n n' : ℕ} (h : n ≤ n') : t.area n ≤ t.area n' := by
  unfold Target.area
  refine Nat.mul_le_mul_left _ ?_
  split_ifs <;> omega

/-- An argument in a register stays there while registers are saved; on the stack it gets further
away. -/
theorem argument_cases : ∀ c ∈ Convention.all, ∀ i ∈ [1, 2, 3, 4],
    let t := Target.bare c
    (∃ r ∈ c.arguments, c.argument i 0 = .register r ∧
      c.argument i t.frame.saved.length = .register r ∧ r ∉ [.rsp, .rax]) ∨
    ∃ d ∈ List.range 64, c.argument i 0 = .memory (.pointer .rsp d) ∧
      c.argument i t.frame.saved.length =
        .memory (.pointer .rsp ((d + t.frame.saved.length * t.pointer.size : ℕ) : ℤ)) ∧
      d + t.pointer.size ≤ t.area (i + 1) := by
  decide +kernel

/-- An argument can be found once registers have been saved. -/
theorem Passes.found {i n : ℕ} (hconv : t.convention ∈ Convention.all) (hc : Fitting c t)
    (hi : i ∈ [1, 2, 3, 4]) (hn : i < n) (hx : Passes c t.convention ⟨R₀, f₀, M₀, k₀⟩ i x)
    (hhigh : R₀ .rsp + t.area n ≤ c.guard.space) (hlow : t.frame.saved.length * c.word ≤ R₀ .rsp)
    (hsp : R .rsp = R₀ .rsp - t.frame.saved.length * c.word) (hR : Kept [.rsp, .rax] R₀ R)
    (hsame : ∀ z, R₀ .rsp ≤ z → M z = M₀ z) (k : ℕ) :
    Machine.fetch c.guard c.place ⟨R, f, M, k⟩ t.pointer
      (t.convention.argument i t.frame.saved.length) = some x := by
  have hpointer : c.guard.mode.pointer = t.pointer := by rw [hc.mode]; rfl
  unfold Passes at hx
  rw [hpointer] at hx
  have hcases := argument_cases t.convention hconv i hi
  rcases hcases with ⟨r, -, hfirst, hthen, hr⟩ | ⟨d, -, hfirst, hthen, hd⟩
  · rw [hfirst] at hx
    refine (congrArg _ hthen).trans ?_
    simp only [Machine.fetch, Machine.get] at hx ⊢
    rwa [hR r hr]
  · rw [hfirst] at hx
    refine (congrArg _ hthen).trans ?_
    have hd : d + t.pointer.size ≤ t.area (i + 1) := hd
    have harea := area_mono t (show i + 1 ≤ n from hn)
    have hpos := t.mode.isWide_pointer
    have hsize : 0 < t.pointer.size := by cases t.pointer <;> decide
    have hword := hc.word_eq
    change Machine.fetch _ _ _ _
      (.memory (.pointer .rsp ((d + t.frame.saved.length * t.pointer.size : ℕ) : ℤ))) = _
    rw [Machine.fetch, address_pointer (by omega)] at hx
    rw [← hword, Machine.fetch, address_pointer (by omega),
      show R .rsp + (d + t.frame.saved.length * c.word) = R₀ .rsp + d by omega]
    exact load_congr hx (by omega) fun j _ => hsame _ (by omega)

theorem fetch_lt {w : Width} {o : Operand} {k v : ℕ}
    (h : Machine.fetch c.guard c.place ⟨R, f, M, k⟩ w o = some v) : v < w.span := by
  cases o with
  | register r =>
    simp only [Machine.fetch, Option.ite_none_right_eq_some, Option.some.injEq] at h
    rw [← h.2]
    exact Nat.mod_lt _ w.span_pos
  | memory x => exact load_lt h

/-- The arguments of a routine get to their registers. -/
theorem arguments_run {dsts : List Register} {v : ℕ → ℕ} (hconv : t.convention ∈ Convention.all)
    (hd : dsts ∈ t.wanted) (hc : Fitting c t) (hM : c.Intact M)
    (h : Lies c a (t.arguments dsts ++ rest) b)
    (hv : ∀ d ∈ dsts.zipIdx 1, Machine.fetch c.guard c.place ⟨R, f, M, a⟩ t.pointer
      (t.convention.argument d.2 t.frame.saved.length) = some (v d.2))
    (after : ∀ R' f k, (∀ d ∈ dsts.zipIdx 1, R' d.1 % c.guard.space = v d.2 ∧
        (d.2 ≤ 2 → R' d.1 = v d.2)) → Kept dsts R R' → Lies c k rest b →
      Eventually c.guard q ⟨R', f, M, k⟩) :
    Eventually c.guard q ⟨R, f, M, a⟩ := by
  obtain ⟨horder, hfrom, hall⟩ := brought_order t.convention hconv dsts hd
  rw [arguments_eq hconv hd] at h
  refine brings_run hc.sound.mode hc.isWide (hc.sound.stands hM) h horder
    (fun p hp => (hfrom p hp).2)
    (fun p hp => ?_) fun R' f' k hval hkept hk => after R' f' k (fun d hmem => ?_) ?_ hk
  · obtain ⟨d, hmem, rfl⟩ := (hfrom p hp).1
    exact Option.isSome_iff_exists.2 ⟨_, hv d hmem⟩
  · have hfetch := hv d hmem
    rcases hall d hmem with hbrought | ⟨hlate, hplace, hnot⟩
    · have hval := Option.some.inj (hfetch.symm.trans (hval _ hbrought))
      have hlt := fetch_lt hfetch
      rw [← hval, Nat.mod_eq_of_lt (hc.space ▸ hlt)]
      exact ⟨rfl, fun _ => rfl⟩
    · refine ⟨?_, fun hle => absurd hle (by omega)⟩
      rw [hkept d.1 hnot, hc.space]
      have hplace : t.convention.argument d.2 t.frame.saved.length = .register d.1 := hplace
      rw [hplace, Machine.fetch, if_pos (hc.isWide.isPlain _)] at hfetch
      exact Option.some.inj hfetch
  · refine hkept.mono fun r hr => ?_
    obtain ⟨p, hp, rfl⟩ := List.mem_map.1 hr
    obtain ⟨d, hmem, rfl⟩ := (hfrom p hp).1
    exact List.fst_mem_of_mem_zipIdx hmem

end Arguments

structure Call where
  site : Site
  target : Target
  registers : Register → ℕ
  flags : Flags
  /-- The address of what comes after the call. -/
  back : ℕ

namespace Call

def enters (k : Call) (m : Mark) : Machine :=
  ⟨k.registers, k.flags, k.site.memory, k.site.place m.label⟩

def top (k : Call) : ℕ := k.registers .rsp

def saved (k : Call) : ℕ := k.target.frame.saved.length * k.site.word

/-- The code is there, the return address is on the stack with what there is of `n` arguments, and
`depth` bytes of stack can be used. -/
structure Framed (k : Call) (n depth : ℕ) : Prop where
  fitting : Fitting k.site k.target
  convention : k.target.convention ∈ Convention.all
  code : ∃ a b, Lies k.site a k.target.items b
  saved_le : k.saved ≤ depth
  low : depth ≤ k.top
  high : k.top + k.target.area n < k.site.guard.space
  owns_stack : k.site.Owns (k.top - depth) depth
  back_lt : k.back < k.site.guard.space
  stores_back : k.site.Stores k.site.memory k.top k.back
  keeps_back : ∀ i < k.site.word,
    k.site.guard.readable (k.top + i) = true ∧ k.site.guard.writable (k.top + i) = false

variable {k : Call} {n depth x y : ℕ} {m : Mark}

theorem rsp_notMem_saved (t : Target) : .rsp ∉ t.frame.saved := by
  unfold Target.frame Frame.of
  split_ifs <;> decide

theorem pointer_le_area (t : Target) (n : ℕ) : t.pointer.size ≤ t.area n :=
  Nat.le_mul_of_pos_right _ (by omega)

/-- The registers for lines are not the stack pointer, and the start has its own. -/
theorem line_registers (t : Target) : t.frame.state ≠ .rsp ∧ t.frame.text ≠ .rsp ∧
    t.frame.start ≠ .rsp ∧ t.frame.start ≠ t.frame.state ∧ t.frame.start ≠ t.frame.text := by
  unfold Target.frame Frame.of
  split_ifs <;> decide

/-- A routine that gets a state and a line has been entered: they are in their registers, and what
has to be kept is on the stack. -/
structure Entered (k : Call) (x y : ℕ) (R : Register → ℕ) (M : ℕ → UInt8) : Prop where
  state : R k.target.frame.state = x
  text : R k.target.frame.text = y
  start : R k.target.frame.start = y
  stackPointer : R .rsp = k.top - k.saved
  kept : Kept [.rsp, k.target.frame.state, k.target.frame.text, k.target.frame.start] k.registers R
  intact : k.site.Intact M
  saved : Saved k.site M k.registers k.top k.target.frame.saved
  others : ∀ z, z < k.top - k.saved ∨ k.top ≤ z → M z = k.site.memory z

/-- What has to be kept is put on the stack. -/
theorem push_run (hk : k.Framed n depth) (h : Lies k.site a (k.target.entry m ++ rest) b)
    (after : ∀ M l, k.site.Intact M → Saved k.site M k.registers k.top k.target.frame.saved →
      (∀ z, z < k.top - k.saved ∨ k.top ≤ z → M z = k.site.memory z) → Lies k.site l rest b →
      Eventually k.site.guard q
        ⟨Function.update k.registers .rsp (k.top - k.saved), k.flags, M, l⟩) :
    Eventually k.site.guard q (k.enters m) := by
  have hlow := hk.low
  have hhigh := hk.high
  have hle := hk.saved_le
  have howns : k.site.Owns (k.top - k.saved) k.saved := fun i hi => by
    have := hk.owns_stack (depth - k.saved + i) (by omega)
    rwa [show k.top - depth + (depth - k.saved + i) = k.top - k.saved + i by omega] at this
  obtain ⟨hplace, hpushes⟩ := h.mark_eq
  unfold enters
  rw [hplace]
  exact pushes_run hk.fitting.sound (fun _ _ => rfl) (rsp_notMem_saved _) hpushes rfl
    (hle.trans hlow) (by change k.top < _; omega) howns after

/-- Arguments are found where they were when the routine was called. -/
theorem Framed.found {i l : ℕ} (hk : k.Framed n depth) (hi : i ∈ [1, 2, 3, 4]) (hn : i < n)
    (hx : Passes k.site k.target.convention (k.enters m) i x) (hsp : R .rsp = k.top - k.saved)
    (hR : Kept [.rsp, .rax] k.registers R) (hsame : ∀ z, k.top ≤ z → M z = k.site.memory z) :
    Machine.fetch k.site.guard k.site.place ⟨R, f, M, l⟩ k.target.pointer
      (k.target.convention.argument i k.target.frame.saved.length) = some x :=
  hx.found hk.convention hk.fitting hi hn hk.high.le (hk.saved_le.trans hk.low) hsp hR hsame l

/-- The way into a routine that gets a state and a line. -/
theorem enter_run (hk : k.Framed 3 depth)
    (h : Lies k.site a (k.target.entry m ++
      (k.target.arguments [k.target.frame.state, k.target.frame.text] ++
        (.code (.mov k.target.pointer (.register k.target.frame.start) k.target.frame.text) ::
          rest))) b)
    (hx : Passes k.site k.target.convention (k.enters m) 1 x)
    (hy : Passes k.site k.target.convention (k.enters m) 2 y) (hlt : y < k.site.guard.space)
    (after : ∀ R f M l, k.Entered x y R M → Lies k.site l rest b →
      Eventually k.site.guard q ⟨R, f, M, l⟩) :
    Eventually k.site.guard q (k.enters m) := by
  have hfit := hk.fitting
  refine push_run hk h fun M l hM hsaved hsame hl => ?_
  have hpushed (rs : List Register) : Kept (.rsp :: rs) k.registers
      (Function.update k.registers .rsp (k.top - k.saved)) := (Kept.refl _ _).update (by simp)
  have hfound {i z : ℕ} (hi : i ∈ [1, 2, 3, 4]) (hn : i < 3)
      (hz : Passes k.site k.target.convention (k.enters m) i z) :=
    hk.found (f := k.flags) (l := l) hi hn hz (Function.update_self ..) (hpushed _)
      fun z hz => hsame z (.inr hz)
  refine arguments_run (v := fun i => if i = 1 then x else y) hk.convention
    k.target.wanted_line hfit hM hl (fun d hd => ?_) fun R f l hval hkept hl => ?_
  · obtain rfl | rfl : d = (k.target.frame.state, 1) ∨ d = (k.target.frame.text, 2) := by
      simpa using hd
    · exact hfound (by simp) (show 1 < 3 by decide) hx
    · exact hfound (by simp) (show 2 < 3 by decide) hy
  have hstate : R k.target.frame.state = x := (hval (_, 1) (by simp)).2 (show 1 ≤ 2 by decide)
  have htext : R k.target.frame.text = y := (hval (_, 2) (by simp)).2 le_rfl
  refine hl.sets hfit.sound hM trivial (by simp [Instruction.memory?, Operand.memory?])
    (fun l => ⟨f, execute_mov hfit.isWide l⟩) fun l f hl => ?_
  obtain ⟨hstatesp, htextsp, hstartsp, hstartstate, hstarttext⟩ := line_registers k.target
  refine after _ f M l ⟨?_, ?_, ?_, ?_, ?_, hM, hsaved, hsame⟩ hl
  · rw [Function.update_of_ne hstartstate.symm, hstate]
  · rw [Function.update_of_ne hstarttext.symm, htext]
  · rw [Function.update_self, htext, ← hfit.space, Nat.mod_eq_of_lt hlt]
  · rw [Function.update_of_ne hstartsp.symm, hkept .rsp (by simp [hstatesp.symm, htextsp.symm]),
      Function.update_self]
  · exact ((hpushed _).trans (hkept.mono (by simp))).update (by simp)

/-- The way out of a routine. -/
theorem leave_run (hk : k.Framed n depth) (h : Lies k.site a k.target.leave b)
    (hM : k.site.Intact M) (hsp : R .rsp = k.top - k.saved)
    (hsaved : Saved k.site M k.registers k.top k.target.frame.saved)
    (after : ∀ R', R' .rsp = k.top + k.site.word →
      (∀ r ∈ k.target.frame.saved, R' r = k.registers r % k.site.guard.space) →
      Kept (.rsp :: k.target.frame.saved) R R' → q ⟨R', f, M, k.back⟩) :
    Eventually k.site.guard q ⟨R, f, M, a⟩ := by
  have hlow := hk.low
  have hhigh := hk.high
  have hle := hk.saved_le
  have harea := pointer_le_area k.target n
  rw [← hk.fitting.word_eq] at harea
  have hread (x : ℕ) (hx : k.top - k.saved ≤ x) (hlt : x < k.top) :
      k.site.guard.readable x = true := by
    have := (hk.owns_stack (x - (k.top - depth)) (by omega)).1
    rwa [show k.top - depth + (x - (k.top - depth)) = x by omega] at this
  refine pops_run hk.fitting.sound hM (rsp_notMem_saved _) h (hle.trans hlow) hsp
    (by omega) hread hsaved fun R' l hsp' hval hkept hl => ?_
  refine hl.ret hk.fitting.sound hM hsp' (by omega) (fun i hi => (hk.keeps_back i hi).1)
    (fun i hi => ?_) hk.back_lt
      (.now (after _ (Function.update_self ..) ?_ (hkept.update (by simp))))
  · rw [hM _ (hk.keeps_back i hi).2]
    exact hk.stores_back i hi
  · intro r hr
    have hne : r ≠ .rsp := by
      rintro rfl
      exact rsp_notMem_saved _ hr
    rw [Function.update_of_ne hne, hval r hr]

theorem rax_notMem (t : Target) : .rax ∉ .rsp :: t.frame.saved := by
  unfold Target.frame Frame.of
  split_ifs <;> decide

/-- The call is over: the machine is behind it and has its registers back. -/
structure Left (k : Call) (m : Machine) : Prop where
  next : m.next = k.back
  stackPointer : m.registers .rsp = k.top + k.site.word
  saved : ∀ r ∈ k.target.convention.saved,
    m.registers r % k.site.guard.space = k.registers r % k.site.guard.space

theorem saved_ne {r : Register} (hc : k.target.convention ∈ Convention.all)
    (hr : r ∈ k.target.convention.saved) : r ≠ .rsp := by
  have h : ∀ c ∈ Convention.all, ∀ r ∈ c.saved, r ≠ .rsp := by decide
  exact h _ hc r hr

/-- The way out, with all that has to be kept on the stack or in its register. -/
theorem return_run (hk : k.Framed n depth) (h : Lies k.site a k.target.leave b)
    (hM : k.site.Intact M) (hsp : R .rsp = k.top - k.saved)
    (hsaved : Saved k.site M k.registers k.top k.target.frame.saved)
    (hkept : ∀ r ∈ k.target.convention.saved, r ∉ k.target.frame.saved →
      R r % k.site.guard.space = k.registers r % k.site.guard.space)
    (after : ∀ m, k.Left m → m.registers .rax = R .rax → m.memory = M → q m) :
    Eventually k.site.guard q ⟨R, f, M, a⟩ := by
  refine leave_run hk h hM hsp hsaved fun R' hsp' hval hsame => after _ ⟨rfl, hsp', ?_⟩ ?_ rfl
  · intro r hr
    change R' r % _ = _
    by_cases hmem : r ∈ k.target.frame.saved
    · rw [hval r hmem, Nat.mod_mod]
    · rw [hsame r (by simp [hmem, saved_ne hk.convention hr]), hkept r hr hmem]
  · exact hsame .rax (rax_notMem _)

end Call

end PortCodec.Program
