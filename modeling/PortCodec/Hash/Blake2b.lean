import PortCodec.Bytes

/-!
The hash function BLAKE2b with a digest of 32 bytes and no key.
-/

namespace PortCodec.Hash.Blake2b

def initial : List UInt64 :=
  [ 0x6a09e667f3bcc908, 0xbb67ae8584caa73b, 0x3c6ef372fe94f82b, 0xa54ff53a5f1d36f1,
    0x510e527fade682d1, 0x9b05688c2b3e6c1f, 0x1f83d9abfb41bd6b, 0x5be0cd19137e2179 ]

/-- The order in which a round takes the words of a block. -/
def schedule : List (List Nat) :=
  [ [0, 1, 2, 3, 4, 5, 6, 7, 8, 9, 10, 11, 12, 13, 14, 15],
    [14, 10, 4, 8, 9, 15, 13, 6, 1, 12, 0, 2, 11, 7, 5, 3],
    [11, 8, 12, 0, 5, 2, 15, 13, 10, 14, 3, 6, 7, 1, 9, 4],
    [7, 9, 3, 1, 13, 12, 11, 14, 2, 6, 5, 10, 4, 0, 15, 8],
    [9, 0, 5, 7, 2, 4, 10, 15, 14, 1, 11, 12, 6, 8, 3, 13],
    [2, 12, 6, 10, 0, 11, 8, 3, 4, 13, 7, 5, 15, 14, 1, 9],
    [12, 5, 1, 15, 14, 13, 4, 10, 0, 7, 6, 3, 9, 2, 8, 11],
    [13, 11, 7, 14, 12, 1, 3, 9, 5, 0, 15, 4, 8, 6, 2, 10],
    [6, 15, 14, 9, 11, 3, 0, 8, 12, 2, 13, 7, 1, 4, 10, 5],
    [10, 2, 8, 4, 7, 6, 1, 5, 15, 11, 9, 14, 3, 12, 13, 0],
    [0, 1, 2, 3, 4, 5, 6, 7, 8, 9, 10, 11, 12, 13, 14, 15],
    [14, 10, 4, 8, 9, 15, 13, 6, 1, 12, 0, 2, 11, 7, 5, 3] ]

/-- The words that the eight steps of a round mix: four columns, then four diagonals. -/
def lanes : List (Nat × Nat × Nat × Nat) :=
  [ (0, 4, 8, 12), (1, 5, 9, 13), (2, 6, 10, 14), (3, 7, 11, 15),
    (0, 5, 10, 15), (1, 6, 11, 12), (2, 7, 8, 13), (3, 4, 9, 14) ]

def rotateRight (x : UInt64) (n : UInt64) : UInt64 := (x >>> n) ||| (x <<< (64 - n))

def mix (v : Array UInt64) (lane : Nat × Nat × Nat × Nat) (x y : UInt64) : Array UInt64 :=
  let (ia, ib, ic, id) := lane
  let (a, b, c, d) := (v.getD ia 0, v.getD ib 0, v.getD ic 0, v.getD id 0)
  let a := a + b + x
  let d := rotateRight (d ^^^ a) 32
  let c := c + d
  let b := rotateRight (b ^^^ c) 24
  let a := a + b + y
  let d := rotateRight (d ^^^ a) 16
  let c := c + d
  let b := rotateRight (b ^^^ c) 63
  (((v.setIfInBounds ia a).setIfInBounds ib b).setIfInBounds ic c).setIfInBounds id d

def round (m : Array UInt64) (v : Array UInt64) (order : List Nat) : Array UInt64 :=
  let rec go : List (Nat × Nat × Nat × Nat) → List Nat → Array UInt64 → Array UInt64
    | lane :: rest, i :: j :: order, v => go rest order (mix v lane (m.getD i 0) (m.getD j 0))
    | _, _, v => v
  go lanes order v

/-- The words of a block, eight bytes each, zero past its end. -/
def words (block : Bytes) : Array UInt64 :=
  ((List.range 16).map fun i => UInt64.ofNat (Bytes.toNatLE ((block.drop (8 * i)).take 8))).toArray

/-- Takes one block into the chain value; `count` is the number of bytes taken so far. -/
def compress (h : List UInt64) (block : Bytes) (count : Nat) (last : Bool) : List UInt64 :=
  let v := (h ++ initial).toArray
  let v := v.setIfInBounds 12 (v.getD 12 0 ^^^ UInt64.ofNat count)
  let v := if last then v.setIfInBounds 14 (v.getD 14 0 ^^^ 0xffffffffffffffff) else v
  let v := schedule.foldl (round (words block)) v
  h.mapIdx fun i x => x ^^^ v.getD i 0 ^^^ v.getD (i + 8) 0

/-- Takes all blocks. The last one may be short; an empty message has one empty block. -/
def absorb (h : List UInt64) (count : Nat) (message : Bytes) : List UInt64 :=
  if message.length ≤ 128 then compress h message (count + message.length) true
  else absorb (compress h (message.take 128) (count + 128) false) (count + 128) (message.drop 128)
termination_by message.length
decreasing_by simp; omega

def start : List UInt64 :=
  match initial with
  | [] => []
  | h :: rest => (h ^^^ 0x01010020) :: rest

def digest (message : Bytes) : Bytes :=
  ((absorb start 0 message).flatMap fun w => Bytes.littleEndian 8 w.toNat).take 32

end PortCodec.Hash.Blake2b
