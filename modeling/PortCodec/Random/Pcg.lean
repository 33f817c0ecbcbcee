import PortCodec.Random.Source

/-!
A permuted congruential generator with a state of 128 bits. Each step multiplies and adds; what is
drawn is a scrambled upper half.
-/

namespace PortCodec.Random

structure Pcg where
  high : UInt64
  low : UInt64
  deriving DecidableEq

namespace Pcg

def multiplier : Nat := 0x2360ed051fc65da44385df649fccf645
def increment : Nat := 0x5851f42d4c957f2d14057b7ef767814f

def next (g : Pcg) : Pcg :=
  let s := (g.high.toNat * 2 ^ 64 + g.low.toNat) * multiplier + increment
  ⟨UInt64.ofNat (s / 2 ^ 64), UInt64.ofNat s⟩

/-- Mixes the halves of a state into one word. -/
def scramble (g : Pcg) : UInt64 :=
  let h := g.high ^^^ (g.high >>> 32)
  let h := h * 0xda942042e4dd58b5
  let h := h ^^^ (h >>> 48)
  h * (g.low ||| 1)

def draw (g : Pcg) : UInt64 × Pcg :=
  let g := g.next
  (g.scramble, g)

def word (g : Pcg) : UInt32 × Pcg :=
  let (w, g) := g.draw
  ((w >>> 32).toUInt32, g)

/-- The quotient of a draw times `n` by the range of a word. A draw whose remainder is below
`least` is thrown away, so that each quotient is hit equally often. -/
def quotient (n least : Nat) (h : 0 < n) : (fuel : Nat) → Pcg → Fin n × Pcg
  | 0, g => (⟨0, h⟩, g)
  | fuel + 1, g =>
    let (w, g) := g.draw
    let product := w.toNat * n
    if product % 2 ^ 64 < least then quotient n least h fuel g
    else
      (⟨product / 2 ^ 64,
        Nat.div_lt_of_lt_mul (Nat.mul_lt_mul_of_pos_right w.toNat_lt h)⟩, g)

/-- How many states the generator runs through before one returns. -/
def period : Nat := 2 ^ 128

/-- A number below `n`. Powers of two take the low bits of a draw. -/
def below (n : Nat) (h : 0 < n) (g : Pcg) : Fin n × Pcg :=
  if n &&& (n - 1) = 0 then
    let (w, g) := g.draw
    (⟨w.toNat % n, Nat.mod_lt _ h⟩, g)
  else quotient n (2 ^ 64 % n) h period g

def source : Source Pcg where
  word := word
  below := below

end Pcg
end PortCodec.Random
