import PortCodec.Files.Folder
import PortCodec.Log.Handler

/-!
What a command works in: the files of its directory, and the things it has said so far, both as
output and to the log, in their order. A log file is one of the files.
-/

namespace PortCodec

inductive Event
  | record (r : Log.Record)
  | output (text : Bytes)

/-- A log file. Each line goes behind the one before, even if the file has been written anew. -/
structure Journal where
  place : Place
  handler : Log.Pairs
  time : Int
  /-- The length of all lines so far. -/
  position : Nat := 0

structure Workspace where
  folder : Folder := {}
  events : Array Event := #[]
  journal : Option Journal := none

namespace Workspace

def output (w : Workspace) : Bytes :=
  w.events.toList.flatMap fun
    | .output text => text
    | .record _ => []

def logText (w : Workspace) (c : Log.Console) : Bytes :=
  w.events.toList.flatMap fun
    | .output _ => []
    | .record r => if c.isEnabled r.level then c.line r else []

/-- Writes a record to the log file, if there is one and the record is for it. -/
def note (w : Workspace) (r : Log.Record) : Workspace :=
  match w.journal with
  | none => w
  | some j =>
    if j.handler.isEnabled r.level then
      let line := j.handler.line { r with time := j.time }
      { w with
        folder := w.folder.overwrite j.place j.position line
        journal := some { j with position := j.position + line.length } }
    else w

end Workspace

/-- Work that may fail with an `ε`. What was done before a failure stays done. -/
abbrev Session (ε : Type) := ExceptT ε (StateM Workspace)

namespace Session

variable {ε ε' α β : Type}

def say (e : Event) : Session ε Unit := modify fun w => { w with events := w.events.push e }

def log (level : Log.Level) (message : String) (attributes : List (String × Log.Value) := []) :
    Session ε Unit := do
  let r : Log.Record :=
    { level, message, attributes := attributes.map fun (key, value) => { key, value } }
  say (.record r)
  modify fun w => w.note r

def print (text : Bytes) : Session ε Unit := say (.output text)

def folder : Session ε Folder := return (← get).folder

def setFolder (f : Folder) : Session ε Unit := modify fun w => { w with folder := f }

/-- The result of something that can fail, with the failure put in this session's terms. -/
def lift (wrap : ε' → ε) : Except ε' α → Session ε α
  | .ok a => pure a
  | .error e => throw (wrap e)

def attempt (work : Session ε' α) : Session ε (Except ε' α) :=
  ExceptT.mk (do return .ok (← ExceptT.run work))

def within (wrap : ε' → ε) (work : Session ε' α) : Session ε α := do
  lift wrap (← attempt work)

def start (work : Session ε α) (w : Workspace) : Except ε α × Workspace :=
  Id.run (StateT.run (ExceptT.run work) w)

@[simp] theorem start_pure (a : α) (w : Workspace) :
    start (pure a : Session ε α) w = (.ok a, w) := rfl

@[simp] theorem start_throw (e : ε) (w : Workspace) :
    start (throw e : Session ε α) w = (.error e, w) := rfl

theorem start_bind (work : Session ε α) (next : α → Session ε β) (w : Workspace) :
    start (work >>= next) w = match start work w with
      | (.ok a, w') => start (next a) w'
      | (.error e, w') => (.error e, w') := by
  unfold start
  simp only [bind, ExceptT.bind, ExceptT.mk, ExceptT.run, ExceptT.bindCont, StateT.bind, StateT.run,
    Id.run]
  cases work w with
  | mk result w' => cases result <;> rfl

/-- An attempt never fails and does what the work does. -/
@[simp] theorem start_attempt (work : Session ε' α) (w : Workspace) :
    start (attempt work : Session ε (Except ε' α)) w =
      (.ok (start work w).1, (start work w).2) := rfl

end Session
end PortCodec
