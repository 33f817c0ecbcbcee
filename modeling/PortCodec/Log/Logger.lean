import PortCodec.Files.Folder
import PortCodec.Log.Handler

/-!
Loggers of a process. Without a log file, records go to standard output and errors to standard
error; with one, all of them go to the file and warnings to standard error too.
-/

namespace PortCodec.Log

inductive Stream
  | output
  | error
  | file (path : String)
  deriving DecidableEq

inductive Handler
  | console (c : Console)
  /-- A console for levels below a bound only. -/
  | below (bound : Level) (c : Console)
  | pairs (p : Pairs)

namespace Handler

def isEnabled (h : Handler) (l : Level) : Bool :=
  match h with
  | .console c => c.isEnabled l
  | .below bound c => l.number < bound.number && c.isEnabled l
  | .pairs p => p.isEnabled l

def withAttributes (h : Handler) (more : List Attribute) : Handler :=
  match h with
  | .console c => .console (c.withAttributes more)
  | .below bound c => .below bound (c.withAttributes more)
  | .pairs p => .pairs (p.withAttributes more)

def withGroup (h : Handler) (name : String) : Handler :=
  match h with
  | .console c => .console (c.withGroup name)
  | .below bound c => .below bound (c.withGroup name)
  | .pairs p => .pairs (p.withGroup name)

def line (h : Handler) (r : Record) : Bytes :=
  match h with
  | .console c => c.line r
  | .below _ c => c.line r
  | .pairs p => p.line r

end Handler

structure Logger where
  handlers : List (Stream × Handler)

namespace Logger

def isEnabled (l : Logger) (level : Level) : Bool := l.handlers.any fun h => h.2.isEnabled level

def withAttributes (l : Logger) (more : List Attribute) : Logger :=
  ⟨l.handlers.map fun h => (h.1, h.2.withAttributes more)⟩

def withGroup (l : Logger) (name : String) : Logger :=
  ⟨l.handlers.map fun h => (h.1, h.2.withGroup name)⟩

def lines (l : Logger) (r : Record) : List (Stream × Bytes) :=
  (l.handlers.filter fun h => h.2.isEnabled r.level).map fun h => (h.1, h.2.line r)

def setup (levelName file : String) : Logger :=
  let level := Level.ofName levelName
  if file = "" then
    ⟨[(.output, .below .error { level }), (.error, .console { level := .error })]⟩
  else
    let loud := if level.number < Level.warn.number then Level.warn else level
    ⟨[(.error, .console { level := loud }), (.file file, .pairs { level })]⟩

/-- Handles nothing that anyone logs. -/
def discard : Handler := .pairs { level := ⟨9⟩ }

end Logger

/-- Empties the log file of a process, if it has one. -/
def openFile (folder : Folder) (file : String) : Except FileError Folder :=
  if file = "" then .ok folder else folder.write file []

end PortCodec.Log
