import PortCodec.CommandLine.Invocation
import Std.Time.DateTime.Timestamp

/-!
The program. Files that the arguments may mean are read ahead, the run itself is computed, and then
its lines are printed and its files are written.
-/

namespace PortCodec.Main

open CommandLine (Invocation Outcome Environment)

def readEnvironment : IO Environment := do
  let found ← Invocation.environmentNames.mapM fun name => return (name, ← IO.getEnv name)
  return found.filterMap fun (name, v) => v.map fun v => (name, v)

/-- What is at a path: a file's content, a directory (`none`), or nothing. -/
def look (path : String) : IO (Option (Option Bytes)) := do
  try
    let content ← IO.FS.readBinFile path
    return some (some content.toList)
  catch e => match e with
    | .inappropriateType .. => return some none
    | _ => return none

def lookAt (f : Folder) (p : Place) : IO Folder := do
  if p.isEmpty || (f.file? p).isSome || f.directories.contains p then return f
  match ← look (Folder.pathOf p) with
  | none => return f
  | some none => return { f with directories := p :: f.directories }
  | some (some content) => return { f with files := (p, content) :: f.files }

def readFolder (paths : List String) : IO Folder :=
  let way (p : Place) : List Place := (List.range (p.length + 1)).map p.take
  let places := paths.flatMap fun path => if path = "" then [] else way (Folder.placeOf path)
  places.foldlM lookAt {}

def isRoot : IO Bool := do
  try
    let status ← IO.FS.readFile "/proc/self/status"
    let fields := (status.splitOn "\n").filter (·.startsWith "Uid:")
    return fields.any fun l => ((l.splitOn "\t").getD 2 "") = "0"
  catch _ => return false

/-- Makes the directories and writes the files that a run has left behind. -/
def writeFolder (before after : Folder) : IO Unit := do
  for d in after.directories.reverse do
    if !before.directories.contains d then IO.FS.createDirAll (Folder.pathOf d)
  for (p, content) in after.files do
    if before.file? p ≠ some content then
      IO.FS.writeBinFile (Folder.pathOf p) ⟨content.toArray⟩

partial def readToEnd (stream : IO.FS.Stream) (done : ByteArray) : IO ByteArray := do
  let more ← stream.read 65536
  if more.isEmpty then return done else readToEnd stream (done ++ more)

def start (arguments : List String) : IO UInt32 := do
  let now ← Std.Time.Timestamp.now
  let empty : Invocation :=
    { arguments, environment := ← readEnvironment, isRoot := ← isRoot
      time := now.val.toNanoseconds.val / 1000 }
  let run := { empty with folder := ← readFolder empty.paths }
  let input ← if run.readsInput then readToEnd (← IO.getStdin) .empty else pure .empty
  let outcome := { run with input := input.toList }.run
  writeFolder run.folder (outcome.folder?.getD run.folder)
  (← IO.getStdout).write ⟨outcome.standardOutput.toArray⟩
  (← IO.getStderr).write ⟨outcome.standardError.toArray⟩
  return UInt32.ofNat outcome.exitCode

end PortCodec.Main

def main (arguments : List String) : IO UInt32 := PortCodec.Main.start arguments
