import PortCodec.Command.Basic

/-!
States to lines and back.
-/

namespace PortCodec.Command

def readAssignment (c : Codec) (text : String) : Session Error Assignment := do
  let a ← Session.lift .assignment (Assignment.parse text (some c.port))
  if (c.layout.lookup? a.controller a.control).isNone then throw (.assignment (.outOfRange text))
  return a

def readState (c : Codec) (text : String) : Session Error Bytes := do
  let state ← Session.lift (.stateText text) (Bytes.unhex (Bytes.ofString text))
  if state.length ≠ c.layout.storageSize then
    throw (.stateSize text state.length c.layout.storageSize)
  return state

def runEncode (s : Setting) (schema : String) (states assignments : List String) :
    Session Error Unit := do
  let c ← openCodec s schema
  let assignments ← assignments.mapM (readAssignment c)
  let states := if states.isEmpty then [Bytes.hex c.newState] else states
  states.forM fun text => do
    let state ← readState c text
    let state ← assignments.foldlM (fun state a =>
      Session.lift .buffer (c.write state (.ofInt a.controller) (.ofInt a.control) a.value)) state
    Session.log .debug "encoding"
      [("state", .text (Bytes.hex state)), ("backend", .text c.backend.name)]
    let line ← Session.lift .buffer (c.line state)
    Session.print (line ++ Bytes.ofString "\n")

def decodeLine (c : Codec) (line : Bytes) : Session Error Unit := do
  let (n, state) ← Session.lift .buffer (c.deserialize c.newState line)
  let values ← (c.layout.index.filter Entry.isStored).mapM fun e => do
    let v ← Session.lift .buffer (c.read state (.ofNat e.controller) (.ofNat e.control))
    return Bytes.ofString s!"\t{e.controller}." ++ controlName c.port e ++
      Bytes.ofString s!"={v.toInt}"
  Session.print (Bytes.ofString s!"{n}\t{Bytes.hex state}" ++ values.flatten ++ Bytes.ofString "\n")

/-- The first line of a text without its end, and what follows it. -/
def firstLine (text : Bytes) : Bytes × Bytes :=
  (text.takeWhile (· ≠ 10), (text.dropWhile (· ≠ 10)).drop 1)

def dropReturn (line : Bytes) : Bytes := if line.getLast? = some 13 then line.dropLast else line

/-- Lines have to be shorter than this. -/
def lineLimit : Nat := 65536

/-- Reads the lines of a text until one is too long: how many were read, and whether all were. -/
def decodeLines (c : Codec) : (fuel : Nat) → (count : Nat) → Bytes → Session Error (Nat × Bool)
  | 0, count, _ => return (count, true)
  | fuel + 1, count, text =>
    if text.isEmpty then return (count, true)
    else
      let (line, rest) := firstLine text
      if lineLimit ≤ line.length then return (count, false)
      else do
        decodeLine c (dropReturn line)
        decodeLines c fuel (count + 1) rest

/-- The text to read lines from, or the failure of reading it. A directory can be opened but not
read. -/
def inputText (s : Setting) (input : String) : Session Error (Except FileError Bytes) := do
  if input = "-" then return .ok s.input
  match (← Session.folder).read input with
  | .ok text => return .ok text
  | .error e => if e.operation = "read" then return .error e else throw (.file e)

def runDecode (s : Setting) (schema : String) (lines : List String) (input : String) :
    Session Error Unit := do
  let c ← openCodec s schema
  if lines.isEmpty then
    let text ← inputText s input
    let (count, complete) ← match text with
      | .ok text => decodeLines c (text.length + 1) 0 text
      | .error _ => pure (0, true)
    Session.log .debug "decoded" [("lines", .int count)]
    if !complete then throw .lineTooLong
    match text with
    | .ok _ => return
    | .error e => throw (.file e)
  else lines.forM fun line => decodeLine c (Bytes.ofString line)

end PortCodec.Command
