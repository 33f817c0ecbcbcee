import PortCodec.Files.Path
import PortCodec.Text.LetterCase

/-!
Where configuration files are looked for: the file that the user names, or files of a fixed name in
the working directory, the user's configuration directory and the machine's.
-/

namespace PortCodec.Settings

/-- What the places depend on. Variables that are not set are `none`. -/
structure Surroundings where
  workingDirectory : String
  home : Option String := none
  configHome : Option String := none
  isRoot : Bool := false

inductive LocationError
  | undefined
  | relative
  deriving DecidableEq

def LocationError.message : LocationError → String
  | .undefined => "neither $XDG_CONFIG_HOME nor $HOME are defined"
  | .relative => "path in $XDG_CONFIG_HOME is relative"

/-- A variable's value; an empty one counts as not set. -/
def value? (v : Option String) : Option String := v.filter (· ≠ "")

def userDirectory (s : Surroundings) : Except LocationError String :=
  match value? s.configHome with
  | some d => if Path.isAbsolute d then .ok (Path.join [d, "portctrl"]) else .error .relative
  | none => match value? s.home with
    | some h => .ok (Path.join [h ++ "/.config", "portctrl"])
    | none => .error .undefined

/-- The machine's configuration directory, which only the administrator has. -/
def systemDirectory (s : Surroundings) : Except LocationError String :=
  if s.isRoot then .ok "/etc/portctrl" else userDirectory s

def directories (s : Surroundings) : List String :=
  let near := s.workingDirectory :: (userDirectory s).toOption.toList
  match systemDirectory s with
  | .ok d => if near.contains d then near else near ++ [d]
  | .error _ => near

structure Candidates where
  json : List String := []
  yaml : List String := []
  toml : List String := []
  deriving DecidableEq

def usual (s : Surroundings) : Candidates :=
  let named (name : String) (d : String) : String := Path.join [d, name]
  let ds := directories s
  { json := ds.map (named "portctrl.json")
    yaml := ds.flatMap fun d => [named "portctrl.yaml" d, named "portctrl.yml" d]
    toml := ds.map (named "portctrl.toml") }

/-- A file that the user names stands alone, if its extension tells its syntax. -/
def candidates (s : Surroundings) (file : String) : Candidates :=
  match Text.lowerCase (Path.extension file) with
  | ".json" => { json := [file] }
  | ".yaml" => { yaml := [file] }
  | ".yml" => { yaml := [file] }
  | ".toml" => { toml := [file] }
  | _ => usual s

/-- The path under which a file is opened: behind a tilde, one in the user's own directory; else one
without detours, unless it is absolute. -/
def expand (s : Surroundings) (path : String) : String :=
  if Path.isAbsolute path then path
  else if path.startsWith "~/" then
    let home := if s.isRoot then "/root" else s.home.getD ""
    Path.join [home, String.ofList (path.toList.drop 2)]
  else Path.clean path

end PortCodec.Settings
