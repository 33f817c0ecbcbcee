import PortCodec.Command.Basic
import PortCodec.CommandLine.Reading
import PortCodec.Settings.Configuration

/-!
From arguments to a command. A flag has the value that is given, else that of the last
configuration that has one, else that of its environment variable, else its default.
-/

namespace PortCodec.CommandLine

open Settings (Configuration)

abbrev Environment := List (String × String)

/-- A value from outside the arguments that a flag cannot have. -/
structure BadSetting where
  flag : String
  deriving DecidableEq

def BadSetting.message (e : BadSetting) : String := s!"--{e.flag}: bad value"

def fromEnvironment (env : Environment) (f : Flag) : Except BadSetting (Option FlagValue) :=
  match f.environment.bind fun name => List.lookup name env with
  | none => .ok none
  | some s => match f.kind.read? s with
    | some v => .ok (some v)
    | none => .error ⟨f.name⟩

def fromConfigurations (cs : List Configuration) (command : Option String) (f : Flag) :
    Except BadSetting (Option FlagValue) :=
  match (cs.filterMap fun c => c.value? command f).getLast? with
  | none => .ok none
  | some v => match Settings.flagValue? f.kind v with
    | some v => .ok (some v)
    | none => .error ⟨f.name⟩

def ambient (env : Environment) (cs : List Configuration) (command : Option String) (f : Flag) :
    Except BadSetting FlagValue := do
  match ← fromConfigurations cs command f with
  | some v => return v
  | none => return ((← fromEnvironment env f).getD f.initial)

/-- The values of all flags: those of the command that is called with their configuration, those of
the others without. -/
def settle (env : Environment) (cs : List Configuration) (r : Reading) :
    Except BadSetting (List (String × FlagValue)) := do
  for f in allFlags do
    let _ ← fromEnvironment env f
  let used := (r.form.map (·.flags)).getD []
  let general ← generalFlags.mapM fun f => do
    match r.value? f.name with
    | some v => return (f.name, v)
    | none => return (f.name, ← ambient env cs none f)
  let own ← used.mapM fun f => do
    match r.value? f.name with
    | some v => return (f.name, v)
    | none => return (f.name, ← ambient env cs (r.form.map (·.name)) f)
  let others ← (forms.filter fun f => some f.name ≠ r.form.map (·.name)).flatMap (·.flags) |>.mapM
    fun f => return (f.name, ← ambient env [] none f)
  return own ++ general ++ others

def forbidden? (values : List (String × FlagValue)) : Option UsageError :=
  allFlags.findSome? fun f =>
    match values.lookup f.name with
    | some (.text s) =>
      if f.choices.isEmpty || f.choices.contains s then none else some (.notAllowed f.name s)
    | _ => none

def stray? (cs : List Configuration) : Option UsageError :=
  cs.findSome? fun c => (c.stray? allFlags).map .unknownSetting

def missing? (r : Reading) : Option UsageError :=
  match r.form with
  | none => some .missingCommand
  | some f =>
    ((f.operands.drop r.operands.length).find? fun o => !o.isList).map fun o =>
      .missingArgument o.name

section

variable (values : List (String × FlagValue))

def textOf (name : String) : String :=
  match values.lookup name with
  | some (.text s) => s
  | _ => ""

def switchOf (name : String) : Bool :=
  match values.lookup name with
  | some (.switch b) => b
  | _ => false

def integerOf (name : String) : Int :=
  match values.lookup name with
  | some (.integer n) => n
  | _ => 0

def textsOf (name : String) : List String :=
  match values.lookup name with
  | some (.texts items) => items
  | _ => []

def commandOf (form : String) (operands : List (List String)) : Command :=
  let first := (operands.getD 0 []).headD ""
  let rest := operands.getD 1 []
  match form with
  | "inspect" => .inspect first (switchOf values "json")
  | "encode" => .encode first rest (textsOf values "set")
  | "decode" => .decode first rest (textOf values "input")
  | "verify" =>
    .verify (operands.getD 0 []) (integerOf values "iterations")
      (UInt64.ofNat (integerOf values "seed").toNat)
  | "dump" => .dump first (textOf values "out") (textOf values "target") (switchOf values "print")
  | "bindings" => .bindings first (textOf values "output") (textOf values "lang")
  | _ => .presets

end
end PortCodec.CommandLine
