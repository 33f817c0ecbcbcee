import PortCodec.Codec.Basic
import PortCodec.Port.Validation
import PortCodec.Layout.Plan
import PortCodec.Program.Dump
import PortCodec.Program.Loading

/-!
Building codecs. Compiled code is preferred; where it cannot be had, the codec falls back to the
interpreter unless compiled code was asked for.
-/

namespace PortCodec

inductive NativeError
  | compile (error : CompileError)
  | load (error : Program.LoadError)
  /-- A cause from elsewhere, as it was told. -/
  | other (text : String)
  /-- The compiler stopped halfway. -/
  | aborted (text : String)
  deriving DecidableEq

def NativeError.message : NativeError → String
  | .compile error => error.message
  | .load error => error.message
  | .other text => text
  | .aborted text => s!"code generation panicked: {text}"

inductive CodecError
  /-- The environment asks for a backend that there is none of. -/
  | environment (word : String)
  | invalid (error : SchemaError)
  | native (error : NativeError)
  deriving DecidableEq

def CodecError.message : CodecError → String
  | .environment word => s!"codec: PORTCTRL_BACKEND: {Backend.unknownMessage word}"
  | .invalid error => error.message
  | .native error => s!"codec: native backend: {error.message}"

/-- What can go wrong while the files of a program are written. -/
inductive DumpOutcome
  | written (folder : Folder)
  | failed (error : DumpError)
  | aborted (text : String)

namespace Codec

structure Toolchain where
  compile : Layout → X86.Convention → Except NativeError Program
  dump : Program → (directory name : String) → Folder → DumpOutcome

/-- A compiler that finds itself in a wrong state stops; other errors are reported. -/
def compileNative (l : Layout) (c : X86.Convention) : Except NativeError Program :=
  match Program.compile l c with
  | .ok p => .ok p
  | .error e =>
    match e with
    | .cyclicMoves _ => .error (.aborted e.message)
    | .misuse _ => .error (.aborted e.message)
    | _ => .error (.compile e)

def loadBase : UInt64 := 0x10000

def Toolchain.standard : Toolchain where
  compile := compileNative
  dump p directory name folder :=
    match p.dump loadBase directory name folder with
    | .ok folder => .written folder
    | .error e => .failed e

structure Options where
  backend : Backend := .auto
  /-- The backend that the environment asks for, if the user does not. -/
  preferred : String := ""
  /-- Where compiled code is written, if it is. -/
  dumpDirectory : String := ""
  toolchain : Toolchain := .standard

/-- The backend to use: the one asked for, else that of the environment. -/
def Options.choice (o : Options) : Except CodecError Backend :=
  if o.backend = .auto ∧ o.preferred ≠ "" then
    match Backend.ofName? o.preferred with
    | some b => .ok b
    | none => .error (.environment o.preferred)
  else .ok o.backend

/-- Compiles and loads a layout, and writes the files of the program if that is asked for. -/
def buildNative (o : Options) (l : Layout) : Session NativeError Program.Loaded := do
  let p ← Session.lift id (o.toolchain.compile l Program.hostConvention)
  let m ← Session.lift .load (p.load l loadBase)
  if o.dumpDirectory ≠ "" then
    let directory := ("dir", Log.Value.text o.dumpDirectory)
    match o.toolchain.dump p o.dumpDirectory l.dumpName (← Session.folder) with
    | .written folder =>
      Session.setFolder folder
      Session.log .info "jit dump written" [directory, ("name", .text l.dumpName)]
    | .failed e =>
      Session.log .warn "failed to write jit dump" [directory, ("error", .text e.message)]
    | .aborted text => throw (.aborted text)
  return m

def build (o : Options) (p : Port) : Session CodecError Codec := do
  let backend ← Session.lift id o.choice
  Session.lift .invalid p.validate
  let l := Layout.plan p
  let interpreted : Codec := { port := p, layout := l, backend := .interpreter }
  if backend = .interpreter then return interpreted
  match ← Session.attempt (buildNative o l) with
  | .ok m =>
    Session.log .debug "native codec ready"
      [("port", .text p.name), ("layout", .text l.shortFingerprint),
       ("size", .int m.program.size)]
    return { port := p, layout := l, backend := .native, native := some m }
  | .error e =>
    if backend = .native then throw (.native e)
    Session.log .warn "native codec unavailable, using interpreter"
      [("port", .text p.name), ("error", .text e.message)]
    return interpreted

end Codec
end PortCodec
