import PortCodec.Program.Basic

/-!
Programs made ready to be called on this host. Only code of the host's own convention can be.
-/

namespace PortCodec.Program

def hostConvention : X86.Convention := .sysv

inductive LoadError
  | unsupportedHost (convention : String)
  | link (error : Assembly.LinkError)
  deriving DecidableEq

def LoadError.message : LoadError → String
  | .unsupportedHost convention =>
    s!"native: generated code cannot run on this host: program targets {convention}, " ++
      s!"host needs {hostConvention.name}"
  | .link error => s!"native: link: {error.message}"

structure Loaded where
  program : Program
  layout : Layout
  base : UInt64
  image : Array UInt8
  globals : List (String × UInt64)

def load (p : Program) (layout : Layout) (base : UInt64) : Except LoadError Loaded :=
  if p.convention ≠ hostConvention then .error (.unsupportedHost p.convention.name)
  else match p.link base with
    | .error e => .error (.link e)
    | .ok (image, globals) => .ok { program := p, layout, base, image, globals }

def Loaded.offsets (l : Loaded) : List (String × UInt64) :=
  l.globals.map fun (name, a) => (name, a - l.base)

end PortCodec.Program
