import PortCodec.Program.Basic
import PortCodec.Text.Columns
import PortCodec.X86.Intel

/-!
Texts about a linked program: the map of its exported names, and a listing of its instructions and
tables.
-/

namespace PortCodec.Program

open X86

def paddedHex (n : Nat) (v : Nat) : String :=
  let digits := String.ofList (Nat.toDigits 16 v)
  "0x" ++ String.ofList (List.replicate (n - digits.length) '0') ++ digits

/-- One line for each exported name, between the start and the end of the image. -/
def symbolMap (p : Program) (base : UInt64) : String :=
  let line (offset : Nat) (name : String) : String :=
    paddedHex 16 (base + UInt64.ofNat offset).toNat ++ " " ++ name ++ "\n"
  line 0 s!"base {p.convention.name}" ++
    String.join (p.symbols.map fun s => line s.offset s.name) ++ line p.size "end"

/-- The exported name at or below an address. Of several at one place the last counts. -/
def nearest (p : Program) (base address : UInt64) : Option (String × UInt64) :=
  let below := p.symbols.filter fun s => base + UInt64.ofNat s.offset ≤ address
  let highest := below.foldl (fun (best : Option ExportedSymbol) s =>
    match best with
    | none => some s
    | some b => if b.offset ≤ s.offset then some s else some b) none
  highest.map fun s => (s.name, base + UInt64.ofNat s.offset)

def listLine (offset : Nat) (text : String) : String := paddedHex 8 offset ++ ":  " ++ text ++ "\n"

def listTable (pointer : Nat) : (count : Nat) → (offset : Nat) → Bytes → String
  | 0, _, _ => ""
  | count + 1, offset, bs =>
    let v := Bytes.toNatLE (bs.take pointer)
    listLine offset ((if pointer = 8 then ".quad " else ".long ") ++ Assembly.hexNumber v) ++
      listTable pointer count (offset + pointer) (bs.drop pointer)

/-- The instruction at the start of a text, as a line and its length. Fill bytes are breakpoints. -/
def listInstruction (p : Program) (base : UInt64) (offset : Nat) (bs : Bytes) : String × Nat :=
  let line (n : Nat) (text : String) : String × Nat :=
    (listLine offset (Text.padRight 24 (Bytes.hex (bs.take n)) ++ " " ++ text), n)
  -- No instruction is longer than fifteen bytes.
  let window := bs.take 15
  match window with
  | 0xcc :: _ => line 1 "int3"
  | _ =>
    match Decoder.decode? p.mode window with
    | some (i, rest) =>
      let n := window.length - rest.length
      let context : Intel.Context :=
        { mode := p.mode, next := base + UInt64.ofNat (offset + n), nearest := p.nearest base }
      line n (Intel.text context i)
    | none => (listLine offset (".byte " ++ paddedHex 2 (bs.headD 0).toNat), 1)

/-- Lists an image from an offset on. Each round takes at least a byte. -/
def listFrom (p : Program) (base : UInt64) : (fuel : Nat) → (offset : Nat) → Bytes → List String
  | 0, _, _ => []
  | fuel + 1, offset, bs =>
    if bs.isEmpty then []
    else
      let names := (p.symbols.filter fun s => s.offset = offset).map fun s => s.name ++ ":\n"
      match p.data.find? fun r => r.start ≤ offset && offset < r.stop with
      | some r =>
        let pointer := p.mode.pointer.size
        let n := r.stop - offset
        names ++ listTable pointer (n / pointer) offset bs ::
          listFrom p base fuel (offset + n) (bs.drop n)
      | none =>
        let (line, n) := listInstruction p base offset bs
        names ++ line :: listFrom p base fuel (offset + n) (bs.drop n)

def listing (p : Program) (base : UInt64) (image : Bytes) : String :=
  String.join (listFrom p base (image.length + 1) 0 image)

/-- The address for programs that are shown without being loaded. -/
def dumpBase : UInt64 := 0x10000

end PortCodec.Program
