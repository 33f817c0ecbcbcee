import PortCodec.X86.Operand

/-!
Calling conventions: where a function finds its integer arguments and which registers it must keep.
-/

namespace PortCodec.X86

structure Convention where
  name : String
  mode : Mode
  /-- The registers of the first arguments; the rest are on the stack. -/
  arguments : List Register
  /-- The distance of the first stack slot from the stack pointer at entry. -/
  stackBase : Int
  /-- Whether arguments in registers own a stack slot too. -/
  homeSlots : Bool := false
  saved : List Register
  /-- Whether this is one of the conventions below; others are told apart from them by this. -/
  isStandard : Bool := false
  deriving DecidableEq

namespace Convention

def sysv : Convention where
  name := "sysv-amd64"
  mode := .bits64
  arguments := [.rdi, .rsi, .rdx, .rcx, .r8, .r9]
  stackBase := 8
  saved := [.rbx, .rbp, .r12, .r13, .r14, .r15]
  isStandard := true

def win64 : Convention where
  name := "win64"
  mode := .bits64
  arguments := [.rcx, .rdx, .r8, .r9]
  stackBase := 8
  homeSlots := true
  saved := [.rbx, .rbp, .rsi, .rdi, .r12, .r13, .r14, .r15]
  isStandard := true

def cdecl : Convention where
  name := "cdecl-386"
  mode := .bits32
  arguments := []
  stackBase := 4
  saved := [.rbx, .rbp, .rsi, .rdi]
  isStandard := true

def all : List Convention := [sysv, win64, cdecl]

/-- The convention that a name or one of its short forms stands for. -/
def find? (name : String) : Option Convention :=
  if ["sysv", "amd64", "x64"].contains name then some sysv
  else if ["386", "cdecl", "x86"].contains name then some cdecl
  else all.find? fun c => c.name = name

/-- Where argument `i` is, with `pushed` registers on the stack since entry. Distances are signed
numbers of 32 bits. -/
def argument (c : Convention) (i : Nat) (pushed : Int) : Operand :=
  match c.arguments[i]? with
  | some r => .register r
  | none =>
    let slot : Int := if c.homeSlots then i else i - c.arguments.length
    let distance := c.stackBase + (slot + pushed) * c.mode.pointer.size
    .memory (.pointer .rsp (distance.bmod (2 ^ 32)))

def isSaved (c : Convention) (r : Register) : Bool := c.saved.contains r

end Convention
end PortCodec.X86
