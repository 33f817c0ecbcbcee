import PortCodec.Random.Source

/-!
Damaged lines: kept as they are, cut short, or with a few bytes replaced by ones that mean
something to a reader.
-/

namespace PortCodec.Line

/-- Separators, line ends, blanks, signs, digits and letters. -/
def noise : Bytes :=
  [124, 46, 13, 10, 0, 32, 45, 43, 48, 49, 50, 51, 52, 53, 54, 55, 56, 57, 65, 66]

variable {σ : Type} (source : Random.Source σ)

def drawNoise (s : σ) : UInt8 × σ :=
  let (i, s) := source.below noise.length (by decide) s
  (noise.get i, s)

/-- Replaces one byte; an empty line gets one. -/
def corrupt (line : Bytes) (s : σ) : Bytes × σ :=
  if h : 0 < line.length then
    let (i, s) := source.below line.length h s
    let (b, s) := drawNoise source s
    (line.set i b, s)
  else
    let (b, s) := drawNoise source s
    ([b], s)

def corruptTimes : Nat → Bytes → σ → Bytes × σ
  | 0, line, s => (line, s)
  | n + 1, line, s =>
    let (line, s) := corrupt source line s
    corruptTimes n line s

def mutate (line : Bytes) (s : σ) : Bytes × σ :=
  let (kind, s) := source.below 4 (by decide) s
  if kind = 0 then (line, s)
  else if kind = 1 then
    let (n, s) := source.below (line.length + 1) (Nat.succ_pos _) s
    (line.take n, s)
  else
    let (n, s) := source.below 4 (by decide) s
    corruptTimes source (n + 1) line s

end PortCodec.Line
