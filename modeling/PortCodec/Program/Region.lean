import PortCodec.Bytes

/-!
Memory for code. A region can be written until it is sealed, which makes it executable; it is never
both.
-/

namespace PortCodec

inductive RegionError
  | invalidSize (size : Int)
  /-- The number of bytes asked of the system is none. -/
  | invalidLength (bytes : Int)
  | outOfMemory (bytes : Int)
  | isSealed
  | isClosed
  deriving DecidableEq

def RegionError.message : RegionError → String
  | .invalidSize size => s!"execmem: invalid size {size}"
  | .invalidLength bytes => s!"execmem: map {bytes} bytes: invalid argument"
  | .outOfMemory bytes => s!"execmem: map {bytes} bytes: cannot allocate memory"
  | .isSealed => "execmem: region is sealed"
  | .isClosed => "execmem: region is closed"

structure Region where
  /-- How many bytes were asked for. -/
  size : Nat
  /-- The bytes at the start; the rest is zero. -/
  content : Bytes := []
  /-- The size in whole pages. -/
  length : Nat
  isSealed : Bool := false
  isClosed : Bool := false
  deriving DecidableEq

namespace Region

def page : Nat := 4096

/-- No process is given this much at once. -/
def limit : Nat := 2 ^ 36

/-- A size rounded up to whole pages, as a signed number of 64 bits. -/
def rounded (size : Int) : Int :=
  ((size + (page - 1)).bmod (2 ^ 64)).tdiv page * page

def allocate (size : Int) : Except RegionError Region :=
  if size ≤ 0 then .error (.invalidSize size)
  else
    let n := rounded size
    if n ≤ 0 then .error (.invalidLength n)
    else if limit ≤ n.toNat then .error (.outOfMemory n)
    else .ok { size := size.toNat, length := n.toNat }

def isWritable (r : Region) : Bool := !r.isSealed && !r.isClosed

/-- Copies bytes to the start, as many as fit: the region after that, and what was copied. -/
def write (r : Region) (bs : Bytes) : Region × Bytes :=
  if r.isWritable then
    let copied := bs.take r.size
    ({ r with content := copied ++ r.content.drop copied.length }, copied)
  else (r, [])

/-- Makes the region executable, once. -/
def makeExecutable (r : Region) : Except RegionError Region :=
  if r.isClosed then .error .isClosed
  else if r.isSealed then .error .isSealed
  else .ok { r with isSealed := true }

def close (r : Region) : Region :=
  if r.isClosed then r else { r with isClosed := true, length := 0 }

def isMapped (r : Region) : Bool := !r.isClosed

end Region
end PortCodec
