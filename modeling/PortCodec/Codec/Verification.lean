import PortCodec.Codec.Basic
import PortCodec.Codec.Mutation
import PortCodec.Random.Pcg

/-!
Two codecs beside each other. Random states and damaged lines are run through both; the first
difference between them, or between a state and what its line reads back as, is reported.
-/

namespace PortCodec

structure Operations (m : Type → Type) where
  serialize : (state out : Bytes) → m (Nat × Bytes)
  deserialize : (state line : Bytes) → m (Int × Bytes)
  read : (state : Bytes) → (controller control : Int64) → m Int16
  write : (state : Bytes) → (controller control : Int64) → Int16 → m Bytes

structure Subject (m : Type → Type) where
  layout : Layout
  backend : Backend
  operations : Operations m

def Codec.subject (c : Codec) : Subject (Except BufferFault) where
  layout := c.layout
  backend := c.backend
  operations :=
    { serialize := c.serialize, deserialize := c.deserialize, read := c.read, write := c.write }

/-- A difference: in what, when, on which state and line, and the two answers. -/
structure Mismatch where
  operation : String
  iteration : Nat
  state : Bytes
  line : Bytes
  want : Bytes
  got : Bytes
  deriving DecidableEq

def Mismatch.message (e : Mismatch) : String :=
  s!"{e.operation} at iteration {e.iteration} (state {Bytes.hex e.state}, line " ++
    Text.Quoted.bytes e.line ++ s!"): want {e.want.asciiText}, got {e.got.asciiText}"

inductive VerifyError
  | layoutsDiffer (reference candidate : String)
  | mismatch (m : Mismatch)
  deriving DecidableEq

def VerifyError.message : VerifyError → String
  | .layoutsDiffer reference candidate =>
    s!"codec: verify: layouts differ ({reference} vs {candidate})"
  | .mismatch m => m.message

namespace Verification

variable {σ : Type} {m : Type → Type} [Monad m]

/-- What one round hands to the next: the buffers are used over and over. -/
structure Round (σ : Type) where
  random : σ
  referenceState : Bytes
  candidateState : Bytes
  referenceText : Bytes
  candidateText : Bytes

def ascii (s : String) : Bytes := Bytes.ofAscii s

def countText (n : Int) (state : Bytes) : Bytes := ascii s!"{n} {Bytes.hex state}"

/-- The first `n` bytes of a text, which has to have them. -/
def firstBytes [MonadExceptOf BufferFault m] (text : Bytes) (n : Nat) : m Bytes :=
  if n ≤ text.length then return text.take n else throw .outside

/-- Reads the line of a state back through one codec, into a buffer of any content. -/
def roundTrip (s : Subject m) (state line buffer : Bytes) :
    m (Except (String × Bytes × Bytes × Bytes) Bytes) := do
  let (n, back) ← s.operations.deserialize buffer line
  if 0 < s.layout.controllers && (n ≠ line.length || back ≠ state) then
    return .error (s!"round trip ({s.backend.name})", line, ascii (Bytes.hex state),
      ascii (Bytes.hex back))
  return .ok back

variable [MonadExceptOf BufferFault m]

/-- One round. A difference is what was tried, on which line, and the two answers. -/
def round (source : Random.Source σ) (reference candidate : Subject m) (state : Bytes)
    (r : Round σ) : ExceptT (String × Bytes × Bytes × Bytes) m (Round σ) := do
  let l := reference.layout
  let (n, referenceText) ← reference.operations.serialize state r.referenceText
  let (k, candidateText) ← candidate.operations.serialize state r.candidateText
  let line ← firstBytes (m := m) referenceText n
  let other ← firstBytes (m := m) candidateText k
  if line ≠ other then throw ("serialize", [], line, other)
  let buffer ← ExceptT.mk (roundTrip { reference with layout := l } state line r.referenceState)
  let buffer ← ExceptT.mk (roundTrip { candidate with layout := l } state line buffer)
  let (probe, random) := Line.mutate source line r.random
  let (n, referenceState) ← reference.operations.deserialize buffer probe
  let (k, candidateState) ← candidate.operations.deserialize r.candidateState probe
  if n ≠ k || referenceState ≠ candidateState then
    throw ("deserialize", probe, countText n referenceState, countText k candidateState)
  if l.controllers = 0 then
    return { random, referenceState, candidateState, referenceText, candidateText }
  let (a, random) := source.below (l.controllers + 1) (Nat.succ_pos _) random
  let (b, random) := source.below 2 (by decide) random
  let (i, random) := source.below (l.stride + 2) (Nat.succ_pos _) random
  let (w, random) := source.word random
  let controller := Int64.ofInt (a - b)
  let control := Int64.ofInt (i - 1)
  let v : Int16 := w.toUInt16.toInt16
  let referenceState ← reference.operations.write state controller control v
  let candidateState ← candidate.operations.write state controller control v
  if referenceState ≠ candidateState then
    throw (s!"write({controller}, {control}, {v.toInt})", [], ascii (Bytes.hex referenceState),
      ascii (Bytes.hex candidateState))
  let x ← reference.operations.read referenceState controller control
  let y ← candidate.operations.read candidateState controller control
  if x ≠ y then
    throw (s!"read({controller}, {control})", [], ascii (toString x.toInt),
      ascii (toString y.toInt))
  return { random, referenceState, candidateState, referenceText, candidateText }

def rounds (source : Random.Source σ) (reference candidate : Subject m) :
    (count i : Nat) → Round σ → m (Option Mismatch)
  | 0, _, _ => return none
  | count + 1, i, r => do
    let l := reference.layout
    let (bs, random) := source.bytes l.storageSize r.random
    let state := l.canonicalize bs
    match ← ExceptT.run (round source reference candidate state { r with random }) with
    | .ok r => rounds source reference candidate count (i + 1) r
    | .error (operation, line, want, got) =>
      return some { operation, iteration := i, state, line, want, got }

def run (source : Random.Source σ) (reference candidate : Subject m) (iterations : Nat)
    (random : σ) : m (Except VerifyError Unit) := do
  if reference.layout.fingerprint ≠ candidate.layout.fingerprint then
    return .error
      (.layoutsDiffer reference.layout.shortFingerprint candidate.layout.shortFingerprint)
  let start : Round σ :=
    { random
      referenceState := reference.layout.newState
      candidateState := candidate.layout.newState
      referenceText := List.replicate reference.layout.maxTextSize 0
      candidateText := List.replicate candidate.layout.maxTextSize 0 }
  match ← rounds source reference candidate iterations 0 start with
  | none => return .ok ()
  | some e => return .error (.mismatch e)

def seeded (seed : UInt64) : Random.Pcg := ⟨seed, seed ^^^ 0x9e3779b97f4a7c15⟩

/-- Compares two codecs on the numbers that a seed gives. -/
def runSeeded (reference candidate : Subject m) (iterations : Int) (seed : UInt64) :
    m (Except VerifyError Unit) :=
  run Random.Pcg.source reference candidate iterations.toNat (seeded seed)

end Verification
end PortCodec
