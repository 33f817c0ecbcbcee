import PortCodec.Command.Run
import PortCodec.CommandLine.Help
import PortCodec.CommandLine.Resolution
import PortCodec.Log.Logger

/-!
One run of the program, from its arguments and surroundings to what it prints and leaves behind.
-/

namespace PortCodec.CommandLine

structure Invocation where
  arguments : List String
  environment : Environment := []
  folder : Folder := {}
  input : Bytes := []
  isRoot : Bool := true
  /-- Microseconds since 1970. -/
  time : Int := 0

inductive Outcome
  | help (text : String)
  /-- The arguments make no sense. -/
  | usage (help : String) (error : UsageError)
  | badSetting (help : String) (error : BadSetting)
  | badConfiguration (error : Settings.ConfigurationError)
  | noLog (error : FileError)
  | ran (lines : List (Log.Stream × Bytes)) (failure : Option Command.Error) (folder : Folder)

namespace Invocation

def setting? (i : Invocation) (name : String) : Option String := i.environment.lookup name

/-- The first `-p` asks for plain help. -/
def replacePlain : List String → List String × Bool
  | [] => ([], false)
  | "-p" :: rest => ("-h" :: rest, true)
  | a :: rest =>
    let (rest, found) := replacePlain rest
    (a :: rest, found)

def configArgument? : List String → Option String
  | [] => none
  | a :: rest =>
    if a.startsWith "--config=" then some (String.ofList (a.toList.drop 9))
    else if a = "--config" then rest.head?
    else configArgument? rest

def surroundings (i : Invocation) : Settings.Surroundings :=
  { workingDirectory := ".", home := i.setting? "HOME", configHome := i.setting? "XDG_CONFIG_HOME"
    isRoot := i.isRoot }

def candidates (i : Invocation) : Settings.Candidates :=
  Settings.candidates i.surroundings
    ((configArgument? i.arguments).getD ((i.setting? "PORTCTRL_CONFIG").getD ""))

def eventLines (logger : Log.Logger) (time : Int) : Event → List (Log.Stream × Bytes)
  | .output text => [(.output, text)]
  | .record r => logger.lines { r with time }

def streamText (lines : List (Log.Stream × Bytes)) (s : Log.Stream) : Bytes :=
  (lines.filter fun l => l.1 = s).flatMap (·.2)

def journal? (folder : Folder) (file : String) (level : Log.Level) (time : Int) : Option Journal :=
  if file = "" then none
  else (folder.locate file).toOption.map fun place => { place, handler := { level }, time }

def runCommand (i : Invocation) (values : List (String × FlagValue)) (c : Command) : Outcome :=
  let file := textOf values "log.file"
  match Log.openFile i.folder file with
  | .error e => .noLog e
  | .ok folder =>
    let level := textOf values "log.level"
    let logger := Log.Logger.setup level file
    let setting : Command.Setting :=
      { backend := textOf values "backend"
        preferred := (i.setting? "PORTCTRL_BACKEND").getD ""
        dumpDirectory := (i.setting? "PORTCTRL_JIT_DUMP").getD ""
        input := i.input }
    let journal := journal? folder file (.ofName level) i.time
    let (result, w) := Session.start (c.run setting) { folder, journal }
    .ran (w.events.toList.flatMap (eventLines logger i.time)) (match result with
      | .ok () => none
      | .error e => some e) w.folder

/-- The command that is called and the values of all flags, or what else the run comes to. -/
def interpret (i : Invocation) : Except Outcome (List (String × FlagValue) × Command) := do
  let (arguments, plain) := replacePlain i.arguments
  let style := if plain then "plain"
    else Text.lowerCase ((i.setting? "PORTCTRL_HELP_STYLE").getD "")
  let configurations ←
    (Settings.loadAll i.folder i.surroundings { i with arguments }.candidates).mapError
      .badConfiguration
  let r ← (read arguments).mapError (.usage (Help.text style none))
  let help := Help.text style r.form
  if (r.value? "help").isSome then throw (.help help)
  let values ← (settle i.environment configurations r).mapError (.badSetting help)
  match ((forbidden? values).or (stray? configurations)).or (missing? r), r.form with
  | some e, _ => throw (.usage help e)
  | none, none => throw (.usage help .missingCommand)
  | none, some form => return (values, commandOf values form.name r.operands)

def run (i : Invocation) : Outcome :=
  match i.interpret with
  | .error outcome => outcome
  | .ok (values, command) => i.runCommand values command

def readsInput (i : Invocation) : Bool :=
  match i.interpret with
  | .ok (_, .decode _ [] "-") => true
  | _ => false

def paths (i : Invocation) : List String :=
  let parts (s : String) : List String :=
    [s, String.ofList (s.toList.drop 2), String.ofList ((s.toList.dropWhile (· ≠ '=')).drop 1)]
  let c := i.candidates
  i.arguments.flatMap parts ++ i.environment.map (·.2) ++
    (c.json ++ c.yaml ++ c.toml).map (Settings.expand i.surroundings)

def environmentNames : List String :=
  allFlags.filterMap (·.environment) ++ ["HOME", "XDG_CONFIG_HOME", "PORTCTRL_HELP_STYLE"]

end Invocation

namespace Outcome

def exitCode : Outcome → Nat
  | .help _ => 0
  | .usage .. => 80
  | .badSetting .. => 1
  | .badConfiguration _ => 2
  | .noLog _ => 2
  | .ran _ none _ => 0
  | .ran _ (some _) _ => 1

/-- An error as users see it: further lines stand under the first. -/
def errorText (message : String) : String :=
  let trimmed := String.ofList (message.toList.reverse.dropWhile (· = '\n')).reverse
  let leader := "portctrl: error: "
  let margin := String.ofList (List.replicate leader.length ' ')
  leader ++ ("\n" ++ margin).intercalate (trimmed.splitOn "\n") ++ "\n"

def standardOutput : Outcome → Bytes
  | .help text => text
  | .usage text _ => text ++ "\n"
  | .badSetting text _ => text ++ "\n"
  | .ran lines _ _ => Invocation.streamText lines .output
  | _ => []

def standardError : Outcome → Bytes
  | .help _ => []
  | .usage _ e => errorText e.message
  | .badSetting _ e => errorText e.message
  | .badConfiguration e => errorText e.message
  | .noLog e => s!"failed to setup logger: open log file: {e.message}\n"
  | .ran lines failure _ =>
    Invocation.streamText lines .error ++ (match failure with
      | none => []
      | some e => errorText e.message)

def help? : Outcome → Option String
  | .help text => some text
  | .usage text _ => some text
  | .badSetting text _ => some text
  | _ => none

def folder? : Outcome → Option Folder
  | .ran _ _ folder => some folder
  | _ => none

end Outcome
end PortCodec.CommandLine
