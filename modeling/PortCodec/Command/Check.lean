import PortCodec.Command.Basic

/-!
Checking compiled codecs against interpreted ones, port by port. A port that fails does not keep
the others from being checked.
-/

namespace PortCodec.Command

def presetReferences : List String := Preset.names.map fun n => "preset:" ++ n

def checkOne (s : Setting) (iterations : Int) (seed : UInt64) (reference : String) :
    Session CheckError Unit := do
  let p ← Session.lift (.load reference) (Port.load (← Session.folder) reference)
  let o : Codec.Options :=
    { preferred := s.preferred, dumpDirectory := s.dumpDirectory, toolchain := s.toolchain }
  let want ← Session.within .codec (Codec.build { o with backend := .interpreter } p)
  let got ← Session.within .codec (Codec.build { o with backend := .native } p)
  let outcome ← Session.lift .buffer
    (Verification.runSeeded want.subject got.subject iterations seed)
  match outcome with
  | .error (.mismatch e) =>
    Session.log .error "backends disagree"
      [("port", .text p.name), ("op", .text e.operation), ("iteration", .int e.iteration),
       ("line", .text e.line)]
    throw (.verify (.mismatch e))
  | .error e => throw (.verify e)
  | .ok () =>
    Session.log .info "verified"
      [("port", .text p.name), ("iterations", .int iterations), ("elapsed", .text "0s")]
    Session.print (Bytes.ofString "ok\t" ++ p.name ++
      Bytes.ofString s!"\t{want.layout.shortFingerprint}\n")

def checkAll (s : Setting) (iterations : Int) (seed : UInt64) :
    List String → Session Error (List (String × CheckError))
  | [] => return []
  | reference :: rest => do
    let outcome ← Session.attempt (checkOne s iterations seed reference)
    let failures ← checkAll s iterations seed rest
    match outcome with
    | .ok () => return failures
    | .error e => return (reference, e) :: failures

def runVerify (s : Setting) (schemas : List String) (iterations : Int) (seed : UInt64) :
    Session Error Unit := do
  let references := if schemas.isEmpty then presetReferences else schemas
  let failures ← checkAll s iterations seed references
  if !failures.isEmpty then throw (.checks failures)

end PortCodec.Command
