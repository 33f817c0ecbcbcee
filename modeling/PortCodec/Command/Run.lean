import PortCodec.Command.Check
import PortCodec.Command.Inspect
import PortCodec.Command.Movie

/-!
Running a command.
-/

namespace PortCodec.Command

def targetNamed (name : String) : Session Error X86.Convention :=
  if name = "host" then return Program.hostConvention
  else match X86.Convention.find? name with
    | some c => return c
    | none => throw (.target name)

def runDump (schema directory target : String) (print : Bool) : Session Error Unit := do
  let p ← loadPort schema
  let convention ← targetNamed target
  let l := Layout.plan p
  let program ← Session.lift .compile (Program.compile l convention)
  program.symbols.forM fun s =>
    Session.log .trace "symbol" [("name", .text s.name), ("offset", .int s.offset)]
  let base := Program.dumpBase
  let folder ← Session.folder
  Session.setFolder (← Session.lift .dump (program.dump base directory l.dumpName folder))
  Session.log .info "jit dump written"
    [("port", .text p.name), ("target", .text convention.name), ("bytes", .int program.size),
     ("dir", .text directory)]
  if print then
    match program.link base with
    | .ok (image, _) => Session.print (program.listing base image.toList)
    | .error e => throw (.dump (.link e))
  else Session.print (Path.join [directory, l.dumpName ++ ".s"] ++ "\n")

def runBindings (schema directory language : String) : Session Error Unit := do
  let p ← loadPort schema
  Session.log .info "Generating bindings"
    [("port", .text p.name), ("output", .text directory), ("lang", .text language)]
  Session.within .bindings (Bindings.generate directory p language)

def run (s : Setting) : Command → Session Error Unit
  | .inspect schema json => runInspect s schema json
  | .encode schema states assignments => runEncode s schema states assignments
  | .decode schema lines input => runDecode s schema lines input
  | .verify schemas iterations seed => runVerify s schemas iterations seed
  | .dump schema directory target print => runDump schema directory target print
  | .bindings schema directory language => runBindings schema directory language
  | .presets => runPresets

end PortCodec.Command
