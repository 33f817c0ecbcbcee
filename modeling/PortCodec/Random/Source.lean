import PortCodec.Bytes

/-!
Sources of random numbers. What draws from a source takes its state and hands on the state after
it; all that a user may rely on is that a number below a bound is below it.
-/

namespace PortCodec.Random

structure Source (σ : Type) where
  word : σ → UInt32 × σ
  below : (n : Nat) → 0 < n → σ → Fin n × σ

namespace Source

variable {σ : Type} (source : Source σ)

/-- Bytes, each the low end of a word of its own. -/
def bytes : Nat → σ → Bytes × σ
  | 0, s => ([], s)
  | n + 1, s =>
    let (w, s) := source.word s
    let (rest, s) := bytes n s
    (w.toUInt8 :: rest, s)

@[simp]
theorem length_bytes (n : Nat) (s : σ) : (source.bytes n s).1.length = n := by
  induction n generalizing s with
  | zero => rfl
  | succ n ih => simp [bytes, ih]

end Source
end PortCodec.Random
