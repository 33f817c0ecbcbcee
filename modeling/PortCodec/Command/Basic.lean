import PortCodec.Bindings.Generation
import PortCodec.Codec.Build
import PortCodec.Codec.Verification
import PortCodec.Command.Assignment
import PortCodec.Port.Source

/-!
The commands, what they share, and how they fail.
-/

namespace PortCodec

inductive Command
  /-- Shows the layout of a port. -/
  | inspect (schema : String) (json : Bool)
  /-- Writes states as lines. -/
  | encode (schema : String) (states assignments : List String)
  /-- Reads lines given or from a file, `-` being standard input. -/
  | decode (schema : String) (lines : List String) (input : String)
  /-- Compares the backends on ports, or on all presets. -/
  | verify (schemas : List String) (iterations : Int) (seed : UInt64)
  /-- Writes compiled code. -/
  | dump (schema directory target : String) (print : Bool)
  /-- Writes definitions for other languages. -/
  | bindings (schema directory language : String)
  /-- Lists the presets. -/
  | presets

namespace Command

structure Setting where
  /-- The backend's name as the user gave it. -/
  backend : String := ""
  /-- The backend that the environment asks for. -/
  preferred : String := ""
  dumpDirectory : String := ""
  toolchain : Codec.Toolchain := .standard
  input : Bytes := []

inductive CheckError
  | load (reference : String) (error : SourceError)
  | codec (error : CodecError)
  | verify (error : VerifyError)
  | buffer (fault : BufferFault)
  deriving DecidableEq

def loadMessage (reference : String) (error : SourceError) : String :=
  s!"load {reference}: {error.message}"

def CheckError.message : CheckError → String
  | .load reference error => loadMessage reference error
  | .codec error => error.message
  | .verify error => error.message
  | .buffer fault => fault.message

inductive Error
  | load (reference : String) (error : SourceError)
  | backend (name : String)
  | codec (error : CodecError)
  | buffer (fault : BufferFault)
  | assignment (error : AssignmentError)
  | stateText (text : String) (fault : Bytes.HexFault)
  | stateSize (text : String) (held needed : Nat)
  | file (error : FileError)
  | lineTooLong
  | target (name : String)
  | compile (error : CompileError)
  | dump (error : DumpError)
  | bindings (error : Bindings.Error)
  /-- The ports that did not pass. -/
  | checks (failures : List (String × CheckError))
  deriving DecidableEq

def hexFaultMessage : Bytes.HexFault → String
  | .oddLength => "encoding/hex: odd length hex string"
  | .invalidByte b =>
    let shown := if Text.isPrintable b.toNat then s!" '{Char.ofNat b.toNat}'" else ""
    "encoding/hex: invalid byte: U+" ++
      Text.upperCase (String.ofList (Text.hexDigits 4 b.toNat)) ++ shown

def Error.message : Error → String
  | .load reference error => loadMessage reference error
  | .backend name => Backend.unknownMessage name
  | .codec error => error.message
  | .buffer fault => fault.message
  | .assignment error => error.message
  | .stateText text fault => "state " ++ Text.Quoted.string text ++ s!": {hexFaultMessage fault}"
  | .stateSize text held needed =>
    "state " ++ Text.Quoted.string text ++ s!" is {held} bytes, layout needs {needed}"
  | .file error => error.message
  | .lineTooLong => "bufio.Scanner: token too long"
  | .target name => "unknown target " ++ Text.Quoted.string name
  | .compile error => error.message
  | .dump error => error.message
  | .bindings error => error.message
  | .checks failures => "\n".intercalate (failures.map fun (name, e) => s!"{name}: {e.message}")

def loadPort (reference : String) : Session Error Port := do
  Session.lift (.load reference) (Port.load (← Session.folder) reference)

def openCodec (s : Setting) (reference : String) : Session Error Codec := do
  let p ← loadPort reference
  match Backend.ofName? s.backend with
  | none => throw (.backend s.backend)
  | some backend =>
    let o : Codec.Options :=
      { backend, preferred := s.preferred, dumpDirectory := s.dumpDirectory,
        toolchain := s.toolchain }
    let c ← Session.within .codec (Codec.build o p)
    Session.log .debug "codec ready"
      [("port", .text p.name), ("backend", .text c.backend.name),
       ("layout", .text c.layout.shortFingerprint)]
    return c

def controlName (p : Port) (e : Entry) : Bytes := (Bindings.controlOf p e).name

def numbersText (ns : List Int) : String := "[" ++ " ".intercalate (ns.map toString) ++ "]"

end Command
end PortCodec
