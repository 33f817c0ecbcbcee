import PortCodec.Proofs.Encoding.Emission
import PortCodec.Proofs.Encoding.Prefixes
import PortCodec.Proofs.Linking.Edited
import PortCodec.Proofs.Linking.Loaded

/-! What the emitter writes is read back. Whatever is written around an instruction, once the code
is linked its bytes are those of this one instruction: with its width, its registers and its
immediate, and with places in memory and targets of jumps at the addresses that its labels have
got. -/

namespace PortCodec.X86

open Assembly

variable {mode : Mode} {labels targets : ℤ → Option ℕ} {f : Form} {s : Shape} {i : Instruction}

section Meaning

def Mode.ahead (mode : Mode) (next : ℕ) (d : ℤ) : Option ℕ :=
  some ((next + d) % mode.pointer.span).toNat

theorem Mode.ahead_mod (mode : Mode) (next : ℕ) :
    mode.ahead (next % mode.pointer.span) = mode.ahead next := by
  funext d
  rw [ahead, ahead, Int.natCast_mod, Int.emod_add_emod]

/-- Where a place in memory counts from, if its label has an address. -/
def Memory.origin? (labels : ℤ → Option ℕ) (m : Memory) : Option ℕ :=
  match m.label with
  | some l => labels l
  | none => some 0

/-- What the registers add to that. A scale of zero counts as one. -/
def Memory.added (R : Register → ℕ) (m : Memory) : ℕ :=
  m.base.elim 0 R + m.index.elim 0 fun r => R r * max 1 m.scale.toNat

def Memory.address? (mode : Mode) (labels : ℤ → Option ℕ) (R : Register → ℕ)
    (m : Memory) : Option ℕ :=
  (m.origin? labels).map fun p : ℕ => ((p + m.displacement + m.added R) % mode.pointer.span).toNat

variable (mode labels targets)

/-- Two places in memory have the same address, whatever the registers hold. Labels stand for
addresses in two ways: those of the first place by name, those of the second as numbers in the
code. -/
def Memory.Same (m m' : Memory) : Prop :=
  ∀ R, ∃ p, m.address? mode labels R = some p ∧ m'.address? mode targets R = some p

inductive Operand.Same : Operand → Operand → Prop
  | register (r : Register) : Same (.register r) (.register r)
  | memory {m m' : Memory} (h : m.Same mode labels targets m') : Same (.memory m) (.memory m')

def SameTarget (l d : ℤ) : Prop := ∃ p, labels l = some p ∧ targets d = some p

/-- Two instructions are one and the same: the operation, the width and the registers are, and
places in memory, targets of jumps and immediates of the width stand for the same. -/
inductive Instruction.Same : Instruction → Instruction → Prop
  | mov {w : Width} {x x' : Operand} {r : Register} (hx : x.Same mode labels targets x') :
    Same (.mov w x r) (.mov w x' r)
  | load {w : Width} {r : Register} {m m' : Memory} (hm : m.Same mode labels targets m') :
    Same (.load w r m) (.load w r m')
  | movImmediate {w : Width} {x x' : Operand} {v v' : ℤ} (hx : x.Same mode labels targets x')
    (hv : w.ofInt v = w.ofInt v') : Same (.movImmediate w x v) (.movImmediate w x' v')
  | loadZero {r : Register} {w : Width} {m m' : Memory} (hm : m.Same mode labels targets m') :
    Same (.loadZero r w m) (.loadZero r w m')
  | loadSign {r : Register} {w : Width} {m m' : Memory} (hm : m.Same mode labels targets m') :
    Same (.loadSign r w m) (.loadSign r w m')
  | alu (op : Alu) (w : Width) (a b : Register) : Same (.alu op w a b) (.alu op w a b)
  | aluImmediate {op : Alu} {w : Width} {x x' : Operand} {v v' : ℤ}
      (hx : x.Same mode labels targets x')
    (hv : w.ofInt v = w.ofInt v') : Same (.aluImmediate op w x v) (.aluImmediate op w x' v')
  | test (w : Width) (a b : Register) : Same (.test w a b) (.test w a b)
  | testImmediate {w : Width} {x x' : Operand} {v v' : ℤ} (hx : x.Same mode labels targets x')
    (hv : w.ofInt v = w.ofInt v') : Same (.testImmediate w x v) (.testImmediate w x' v')
  | inc (w : Width) (r : Register) : Same (.inc w r) (.inc w r)
  | dec (w : Width) (r : Register) : Same (.dec w r) (.dec w r)
  | neg (w : Width) (r : Register) : Same (.neg w r) (.neg w r)
  | div (w : Width) (r : Register) : Same (.div w r) (.div w r)
  | shl (w : Width) (r : Register) (n : UInt8) : Same (.shl w r n) (.shl w r n)
  | shr (w : Width) (r : Register) (n : UInt8) : Same (.shr w r n) (.shr w r n)
  | imul {w : Width} {a b : Register} {v v' : ℤ} (hv : w.ofInt v = w.ofInt v') :
    Same (.imul w a b v) (.imul w a b v')
  | lea {r : Register} {m m' : Memory} (hm : m.Same mode labels targets m') :
      Same (.lea r m) (.lea r m')
  | push (r : Register) : Same (.push r) (.push r)
  | pop (r : Register) : Same (.pop r) (.pop r)
  | ret : Same .ret .ret
  | jmp {l d : ℤ} (h : SameTarget labels targets l d) : Same (.jmp l) (.jmp d)
  | jmpShort {l d : ℤ} (h : SameTarget labels targets l d) : Same (.jmpShort l) (.jmpShort d)
  | jcc {c : Condition} {l d : ℤ} (h : SameTarget labels targets l d) : Same (.jcc c l) (.jcc c d)
  | jccShort {c : Condition} {l d : ℤ} (h : SameTarget labels targets l d) :
      Same (.jccShort c l) (.jccShort c d)
  | call {l d : ℤ} (h : SameTarget labels targets l d) : Same (.call l) (.call d)
  | jmpMemory {m m' : Memory} (hm : m.Same mode labels targets m') :
      Same (.jmpMemory m) (.jmpMemory m')

end Meaning

section Labels

/-- How a place with a label is written: relative to the instruction in 64-bit mode, by its address
otherwise. -/
def Memory.LabelIn (mode : Mode) (s : Shape) (m : Memory) : Prop :=
  ∀ l, m.label = some l → m.base = none ∧
    (mode = .bits64 ∧ m.index = none ∧ (∃ k, s.field = some (.rel32 k, l)) ∨
      mode ≠ .bits64 ∧ s.field = some (.abs32, l))

theorem Form.shape_label {m : Memory} (hs : f.shape mode = .ok s) (hop : f.operand = .memory m) :
    m.LabelIn mode s := by
  intro l hl
  obtain ⟨-, s', hs', rfl⟩ := f.shape_cases hs
  rcases f.operandShape_cases hs' with ⟨r, hop', rfl⟩ | ⟨m', l', bs, patch, hop', hl', hbs, rfl⟩ |
    ⟨m', bs, hop', hl', -, rfl⟩
  · rw [hop] at hop'
    cases hop'
  · rw [hop] at hop'
    cases hop'
    rw [hl] at hl'
    cases hl'
    obtain ⟨hbase, ⟨h64, hindex, rfl⟩ | ⟨h32, rfl⟩⟩ := labelOperand_patch hbs
    · exact ⟨hbase, .inl ⟨h64, hindex, _, rfl⟩⟩
    · exact ⟨hbase, .inr ⟨h32, rfl⟩⟩
  · rw [hop] at hop'
    cases hop'
    rw [hl] at hl'
    cases hl'

theorem Instruction.shape_label {m : Memory} (hs : i.shape mode = .ok s) (hm : i.memory? = some m) :
    m.LabelIn mode s := by
  cases i with
  | mov w x r =>
    cases x <;> cases hm
    exact Form.shape_label hs rfl
  | load | loadZero | loadSign | lea | jmpMemory =>
    cases hm
    exact Form.shape_label hs rfl
  | movImmediate w x v | testImmediate w x v =>
    cases x <;> cases hm
    obtain ⟨bs, -, hs⟩ := shapeWith_cases hs
    exact Form.shape_label hs rfl
  | aluImmediate op w x v =>
    cases x <;> cases hm
    simp only [shape] at hs
    split_ifs at hs
    · obtain ⟨bs, -, hs⟩ := shapeWith_cases hs
      exact Form.shape_label hs rfl
    · exact Form.shape_label hs rfl
    · obtain ⟨bs, -, hs⟩ := shapeWith_cases hs
      exact Form.shape_label hs rfl
  | _ => cases hm

variable {g : Guard} {next : ℕ} {n : ℤ}

/-- The field of a shape leads to its label, at a distance. -/
def Shape.Leads (s : Shape) (g : Guard) (labels : ℤ → Option ℕ) (next : ℕ)
    (n distance : ℤ) : Prop :=
  ∀ patch l, s.field = some (patch, l) →
    ∃ p, labels l = some p ∧ g.Leads next n ((p + distance) % g.space).toNat patch

theorem toNat_add_zero_emod {p k : ℕ} (h : p < k) : (((p : ℤ) + 0) % k).toNat = p := by
  rw [add_zero, Int.emod_eq_of_lt (by omega) (by exact_mod_cast h), Int.toNat_natCast]

theorem Shape.Counts.aimedAt (h : s.Counts mode) (l : ℤ) : (s.aimedAt l).Counts mode := by
  intro patch l' hfield
  obtain ⟨⟨patch', k⟩, hfield', heq⟩ := Option.map_eq_some_iff.1 hfield
  cases heq
  exact h patch' k hfield'

theorem Memory.same_of_modEq {m m' : Memory} {p p' : ℕ} (hp : m.origin? labels = some p)
    (hp' : m'.origin? targets = some p') (hadded : ∀ R, m'.added R = m.added R)
    (h : p + m.displacement ≡ p' + m'.displacement [ZMOD mode.pointer.span]) :
    m.Same mode labels targets m' := by
  intro R
  refine ⟨_, by rw [address?, hp]; rfl, ?_⟩
  rw [address?, hp', hadded, Option.map_some]
  exact congrArg (fun q : ℤ => some q.toNat) (h.add_right _).symm

/-- No register is lost with a label. -/
theorem Memory.added_decoded {m : Memory} (hlabel : m.LabelIn mode s) (R : Register → ℕ) :
    (m.decoded mode n).added R = m.added R := by
  have hscale : (m.index.elim 0 fun r => R r * max 1 m.readScale.toNat) =
      m.index.elim 0 fun r => R r * max 1 m.scale.toNat := by
    cases hindex : m.index with
    | none => rfl
    | some r => rw [Option.elim_some, Option.elim_some, readScale_of_isSome (by rw [hindex]; rfl)]
  unfold decoded
  cases hl : m.label with
  | none => simp only [added, hscale]
  | some l =>
    obtain ⟨hbase, ⟨h64, hindex, -⟩ | ⟨h32, -⟩⟩ := hlabel l hl
    · simp [added, h64, hbase, hindex]
    · simp [added, h32, hbase, hscale]

/-- A place in memory that was read back is where it was. -/
theorem Memory.same_decoded {m : Memory} (hlabel : m.LabelIn g.mode s)
    (hs : m.label.isSome → s.Leads g labels next n m.displacement) :
    m.Same g.mode labels (g.mode.ahead next) (m.decoded g.mode n) := by
  have hadded (R : Register → ℕ) := m.added_decoded (n := n) hlabel R
  have hmod (d : ℤ) : (((d % g.space).toNat : ℕ) : ℤ) ≡ d [ZMOD g.space] := by
    rw [Int.toNat_of_nonneg (Int.emod_nonneg d (by have := g.space_pos; omega))]
    exact Int.mod_modEq d g.space
  cases hl : m.label with
  | none =>
    have hdecoded : m.decoded g.mode n = { m with scale := m.readScale } := by
      simp only [decoded, hl]
    refine same_of_modEq (p := 0) (by rw [origin?, hl]) (by rw [hdecoded, origin?, hl]) hadded ?_
    rw [hdecoded]
  | some l =>
    have horigin {p : ℕ} (hp : labels l = some p) : m.origin? labels = some p := by
      rw [origin?, hl]
      exact hp
    obtain ⟨-, ⟨h64, -, k, hfield⟩ | ⟨h32, hfield⟩⟩ := hlabel l hl
    · obtain ⟨p, hp, hlead⟩ := hs (by rw [hl]; rfl) _ _ hfield
      have hlead : ((p + m.displacement) % g.space).toNat = ((next + n) % g.space).toNat := hlead
      have hdecoded : m.decoded g.mode n = { label := some n } := by
        simp only [decoded, hl, h64, ↓reduceIte]
      refine same_of_modEq (horigin hp) (by rw [hdecoded]; rfl) hadded ?_
      calc (p + m.displacement : ℤ) ≡ (((next + n) % g.space).toNat : ℕ) [ZMOD g.space] :=
          hlead ▸ (hmod _).symm
        _ = (((next + n) % g.space).toNat : ℕ) + (m.decoded g.mode n).displacement := by
          simp [hdecoded]
    · obtain ⟨p, hp, hlead⟩ := hs (by rw [hl]; rfl) _ _ hfield
      have hlead : ((p + m.displacement) % g.space).toNat = (n % g.space).toNat := hlead
      have hdecoded :
          m.decoded g.mode n = { index := m.index, scale := m.readScale, displacement := n } := by
        simp only [decoded, hl, h32, ↓reduceIte]
      refine same_of_modEq (p := p) (horigin hp) (by rw [hdecoded]; rfl) hadded ?_
      calc (p + m.displacement : ℤ) ≡ ((n % g.space).toNat : ℕ) [ZMOD g.space] :=
          hlead ▸ (hmod _).symm
        _ ≡ n [ZMOD g.space] := hmod n
        _ = ((0 : ℕ) : ℤ) + (m.decoded g.mode n).displacement := by simp [hdecoded]

/-- How far an instruction reaches beyond its label. -/
def Instruction.distance (i : Instruction) : ℤ :=
  i.memory?.elim 0 fun m => if m.label.isSome then m.displacement else 0

theorem Instruction.distance_of_isPlain (h : ∀ m ∈ i.memory?, m.IsPlain) : i.distance = 0 := by
  unfold distance
  cases hm : i.memory? with
  | none => rfl
  | some m => simpa [Memory.IsPlain] using h m hm

/-- An instruction that was read back is the one that was written. -/
theorem Instruction.same_decoded (hs : i.shape g.mode = .ok s) (hi : i.Regular)
    (hlead : s.Leads g labels next n i.distance)
    (hlabels : ∀ l p, labels l = some p → p < g.space) :
    i.Same g.mode labels (g.mode.ahead next) (i.decoded g.mode n) := by
  have hmemory {m : Memory} (hm : i.memory? = some m) :
      m.Same g.mode labels (g.mode.ahead next) (m.decoded g.mode n) := by
    refine Memory.same_decoded (i.shape_label hs hm) fun hl => ?_
    rwa [distance, hm, Option.elim_some, if_pos hl] at hlead
  have hoperand {x : Operand} (hx : i.memory? = x.memory?) :
      x.Same g.mode labels (g.mode.ahead next) (x.decoded g.mode n) := by
    cases x with
    | register r => exact .register r
    | memory m => exact .memory (hmemory hx)
  have htarget {patch : Patch} {l : ℤ} (hfield : s.field = some (patch, l))
      (hpatch : patch = .rel8 ∨ patch = .rel32 0)
      (hm : i.memory? = none) : SameTarget labels (g.mode.ahead next) l n := by
    obtain ⟨p, hp, h⟩ := hlead patch l hfield
    refine ⟨p, hp, congrArg some ?_⟩
    have h : ((p + 0 : ℤ) % g.space).toNat = ((next + n) % g.space).toNat := by
      rw [distance, hm] at h
      rcases hpatch with rfl | rfl
      · exact h
      · exact h
    exact h.symm.trans (toNat_add_zero_emod (hlabels l p hp))
  cases i with
  | mov w x r => exact .mov (hoperand rfl)
  | load w r m => exact .load (hmemory rfl)
  | movImmediate w x v => exact .movImmediate (hoperand rfl) (Width.ofInt_readBack hi).symm
  | loadZero r w m => exact .loadZero (hmemory rfl)
  | loadSign r w m => exact .loadSign (hmemory rfl)
  | alu op w a b => exact .alu op w a b
  | aluImmediate op w x v =>
    refine .aluImmediate (hoperand rfl) ?_
    split_ifs
    · rfl
    · exact (Width.ofInt_readBack hi.2).symm
  | test w a b => exact .test w a b
  | testImmediate w x v => exact .testImmediate (hoperand rfl) (Width.ofInt_readBack hi).symm
  | inc w r => exact .inc w r
  | dec w r => exact .dec w r
  | neg w r => exact .neg w r
  | div w r => exact .div w r
  | shl w r k => exact .shl w r k
  | shr w r k => exact .shr w r k
  | imul w a b v =>
    refine .imul ?_
    split_ifs
    · rfl
    · exact (Width.ofInt_readBack hi.2).symm
  | lea r m => exact .lea (hmemory rfl)
  | push r => exact .push r
  | pop r => exact .pop r
  | ret => exact .ret
  | jmp l => cases hs; exact .jmp (htarget rfl (.inr rfl) rfl)
  | jmpShort l => cases hs; exact .jmpShort (htarget rfl (.inl rfl) rfl)
  | jcc c l => cases hs; exact .jcc (htarget rfl (.inr rfl) rfl)
  | jccShort c l => cases hs; exact .jccShort (htarget rfl (.inl rfl) rfl)
  | call l => cases hs; exact .call (htarget rfl (.inr rfl) rfl)
  | jmpMemory m => exact .jmpMemory (hmemory rfl)
  | address l => exact hi.elim

end Labels

end PortCodec.X86

namespace PortCodec.Assembler

open X86 Assembly

variable {a b c : Assembler} {base : UInt64} {s : X86.Shape} {i : Instruction} {g : Guard}

/-- The address of a label in code that starts at `base`, as far as the addresses of the mode go. -/
def address? (c : Assembler) (mode : Mode) (base : UInt64) (l : ℤ) : Option ℕ :=
  (c.resolve l base).toOption.map fun p => p.toNat % mode.pointer.span

/-- What linked code holds between two stages of its construction. -/
def between (a b : Assembler) (image : Array UInt8) : Bytes :=
  (image.toList.drop a.size).take (b.size - a.size)

theorem address?_relative {k l d : ℤ} {p : ℕ} (hk : c.binding? k = some (.relative l d))
    (hl : 0 ≤ l ∧ l < k) (h : c.address? g.mode base k = some p) :
    ∃ q, c.address? g.mode base l = some q ∧ ((q + d) % g.space).toNat = p := by
  obtain ⟨t, ht, rfl⟩ := Option.map_eq_some_iff.1 h
  have ht := Program.toOption_eq_some ht
  obtain ⟨t', ht', rfl⟩ : ∃ t', c.resolve l base = .ok t' ∧ t = t' + UInt64.ofInt d := by
    rw [resolve_relative hk hl] at ht
    cases hl : c.resolve l base with
    | error e =>
      rw [hl] at ht
      cases ht
    | ok t' =>
      rw [hl] at ht
      exact ⟨t', rfl, Except.ok.inj ht.symm⟩
  refine ⟨t'.toNat % g.space, by rw [address?, ht']; rfl, ?_⟩
  have hd : (UInt64.ofInt d).toNat = (d % 2 ^ 64).toNat := by
    rw [UInt64.ofInt, UInt64.toNat_ofNat']
    omega
  have hsum : (t' + UInt64.ofInt d).toNat = (t'.toNat + (UInt64.ofInt d).toNat) % 2 ^ 64 :=
    UInt64.toNat_add ..
  rw [hsum, show g.mode.pointer.span = g.space from rfl]
  rcases g.space_cases with hg | hg <;> rw [hg] <;> omega

/-- The field of a shape leads to its label once it is filled in. -/
theorem leads_fieldAt {o : ℕ} {bs : Bytes} (hmode : g.mode = .bits32 ∨ g.mode = .bits64)
    (hs : s.Counts g.mode) (hf : Program.fieldAt? c base (o, s) = some bs) :
    s.Leads g (c.address? g.mode base) ((base.toNat + o + s.size) % g.space) bs.signed 0 := by
  intro patch l hfield
  have hresolves := Program.resolves_fieldAt hmode hs hf patch l hfield
  obtain ⟨target, ht, -⟩ := (Program.fieldAt?_some hf).2 patch l hfield
  refine ⟨target.toNat % g.space, by rw [address?, ht]; rfl, ?_⟩
  simp only [Program.placeOf, ht] at hresolves
  rwa [toNat_add_zero_emod (Nat.mod_lt _ g.space_pos)]

theorem address?_lt {l : ℤ} {p : ℕ} (h : c.address? g.mode base l = some p) : p < g.space := by
  obtain ⟨t, -, rfl⟩ := Option.map_eq_some_iff.1 h
  exact Nat.mod_lt _ g.space_pos

end PortCodec.Assembler

namespace PortCodec.X86.Emitter

open Assembly Assembler

variable {e e' : Emitter} {s : Shape} {i : Instruction} {g : Guard} {c : Assembler} {base : UInt64}
  {buffer image : Array UInt8} {globals : List (String × UInt64)}

theorem size_put (e : Emitter) (s : Shape) :
    (e.put s).assembler.size = e.assembler.size + s.size := by
  simp [Assembler.size, put, size_append_bytes, s.length_raw]

/-- A shape in linked code stands there in its bytes, with a field that leads to its label. -/
theorem put_linked (hmode : g.mode = .bits32 ∨ g.mode = .bits64) (hs : s.Counts g.mode)
    (he : Grows {} e.assembler) (hc : Grows (e.put s).assembler c)
    (h : c.flush buffer base = (image, .ok globals)) :
    ∃ bs, bs.length = s.room ∧ (image.toList.drop e.assembler.size).take s.size = s.fill bs ∧
      s.Leads g (c.address? g.mode base) ((base.toNat + (e.assembler.size + s.size)) % g.space)
        bs.signed 0 := by
  obtain ⟨bs, hf, hfill⟩ := flush_shape (s := s) he (by simp [put]) (by simp [put]) hc h
  refine ⟨bs, (Program.fieldAt?_some hf).1, hfill, ?_⟩
  rw [← Nat.add_assoc]
  exact leads_fieldAt hmode hs hf

/-- What was written for an instruction, in linked code. -/
theorem Wrote.linked (hmode : g.mode = .bits32 ∨ g.mode = .bits64) (hs : i.shape g.mode = .ok s)
    (hw : Wrote e s i.memory? e') (he : Grows {} e.assembler) (hc : Grows e'.assembler c)
    (h : c.flush buffer base = (image, .ok globals)) :
    e'.assembler.size = e.assembler.size + s.size ∧ ∃ bs, bs.length = s.room ∧
      (image.toList.drop e.assembler.size).take s.size = s.fill bs ∧
      s.Leads g (c.address? g.mode base) ((base.toNat + e'.assembler.size) % g.space) bs.signed
        i.distance := by
  have hcounts := Instruction.shape_counts hs
  cases hw with
  | plain hplain =>
    rw [Instruction.distance_of_isPlain hplain, size_put]
    exact ⟨rfl, put_linked hmode hcounts he hc h⟩
  | @apart m l hm hl hb =>
    have hdistance : i.distance = m.displacement := by
      rw [Instruction.distance, hm, Option.elim_some, if_pos (by rw [hl]; rfl)]
    have hadd := he.trans (grows_addLabel e.assembler (.relative l m.displacement))
    have hk : c.binding? e.assembler.labels.size = some (.relative l m.displacement) :=
      hc.labels _ _ ((binding?_addLabel ..).trans (if_pos rfl)) nofun
    obtain ⟨bs, hlen, hfill, hlead⟩ := put_linked hmode (hcounts.aimedAt _) hadd hc h
    rw [Shape.size_aimedAt] at hfill hlead
    rw [hdistance, size_put, Shape.size_aimedAt]
    refine ⟨rfl, bs, by rw [hlen, Shape.room_aimedAt], hfill, fun patch l' hfield => ?_⟩
    obtain rfl : l' = l := by
      obtain ⟨-, ⟨-, -, k, hfield'⟩ | ⟨-, hfield'⟩⟩ :=
        i.shape_label hs hm l hl <;> rw [hfield] at hfield' <;> cases hfield' <;> rfl
    obtain ⟨p, hp, hlead⟩ :=
      hlead patch e.assembler.labels.size (by rw [Shape.aimedAt, hfield]; rfl)
    obtain ⟨q, hq, rfl⟩ := address?_relative hk (lt_of_binding?_isSome hb) hp
    rw [toNat_add_zero_emod (address?_lt hp)] at hlead
    exact ⟨q, hq, hlead⟩

/-- Whatever is written before and after it, and wherever the code is linked for, an instruction
that the emitter accepted stands there in bytes that are read as this instruction and end with it.
An address kept as data is no instruction. -/
theorem emit_decodes {before after : List Edit} (hmode : e.mode = .bits32 ∨ e.mode = .bits64)
    (he : e.assembler = Assembler.edited {} before) (hemit : e.emit i = (e', none))
    (herror : e'.error = none)
    (hflush : (e'.assembler.edited after).flush buffer base = (image, .ok globals)) (hi : i.Regular)
    (hfits : ∀ m ∈ i.memory?, m.Fits) :
    (e.assembler.between e'.assembler image).length = e'.assembler.size - e.assembler.size ∧
      ∃ i', (∀ rest, Decoder.strict? e.mode (e.assembler.between e'.assembler image ++ rest) =
        some (i', rest)) ∧ i.Same e.mode ((e'.assembler.edited after).address? e.mode base)
          (e.mode.ahead (base.toNat + e'.assembler.size)) i' := by
  let g : Guard := ⟨e.mode, fun _ => true, fun _ => true, fun _ => true, fun _ => true⟩
  obtain ⟨s, hs, hwrote⟩ := emit_wrote hemit herror
  obtain ⟨hsize, bs, hlen, hfill, hlead⟩ :=
    Wrote.linked (g := g) hmode hs hwrote (he ▸ grows_edited {} before)
      (grows_edited e'.assembler after) hflush
  have hbetween : e.assembler.between e'.assembler image = s.fill bs := by
    rw [between, hsize, Nat.add_sub_cancel_left, hfill]
  rw [hbetween]
  refine ⟨by rw [s.length_fill hlen, hsize, Nat.add_sub_cancel_left],
    i.decoded e.mode bs.signed, ?_, ?_⟩
  · exact i.strict?_shape hmode hs hi hfits hlen
  · rw [← e.mode.ahead_mod]
    exact Instruction.same_decoded (g := g) hs hi hlead fun l p hp => address?_lt hp

/-- Code with a label behind its first byte. -/
def marked : Emitter := { mode := .bits64, assembler := Assembler.edited {} [.bytes [0x90], .here] }

/-- A test of two bytes five bytes behind the label, which is inside the instruction itself. -/
def ownTest : Instruction :=
  .testImmediate .word (.memory { label := some 0, displacement := 5 }) 0x8001

theorem ownTest_decodes :
    let e' := (marked.emit ownTest).1
    let c := e'.assembler.edited [.bytes [0xc3]]
    c.flush (Array.replicate 11 0) 0x400000 =
        (#[0x90, 0x66, 0xf7, 0x05, 0xfc, 0xff, 0xff, 0xff, 0x01, 0x80, 0xc3], .ok []) ∧
      ∃ i', Decoder.strict? .bits64 [0x66, 0xf7, 0x05, 0xfc, 0xff, 0xff, 0xff, 0x01, 0x80, 0xc3] =
        some (i', [0xc3]) ∧
        ownTest.Same .bits64 (c.address? .bits64 0x400000) (Mode.ahead .bits64 0x40000a) i' := by
  intro e' c
  have hedited : marked.assembler = Assembler.edited {} [.bytes [0x90], .here] := rfl
  have hemit : marked.emit ownTest = (e', none) := rfl
  have hflush : (e'.assembler.edited [.bytes [0xc3]]).flush (Array.replicate 11 0) 0x400000 =
      (#[0x90, 0x66, 0xf7, 0x05, 0xfc, 0xff, 0xff, 0xff, 0x01, 0x80, 0xc3], .ok []) := by
        decide +kernel
  have hfits : ∀ m ∈ ownTest.memory?, m.Fits := by
    rintro _ ⟨⟩
    decide
  obtain ⟨-, i', hread, hsame⟩ := emit_decodes (.inr rfl) hedited hemit rfl hflush nofun hfits
  exact ⟨hflush, i', hread [0xc3], hsame⟩

end PortCodec.X86.Emitter
