import PortCodec.CommandLine.Grammar
import PortCodec.Text.Quoted

/-!
Reading arguments. Flags may stand before or behind the command; a list argument takes what stands
together; behind `--` nothing is a flag.
-/

namespace PortCodec.CommandLine

inductive UsageError
  | unknownFlag (flag : String)
  | missingValue (flag : String)
  | badValue (flag text : String)
  | unexpected (argument : String)
  | missingCommand
  | missingArgument (name : String)
  | notAllowed (flag text : String)
  /-- A configuration has a value for no flag. -/
  | unknownSetting (name : Bytes)
  deriving DecidableEq

def UsageError.message : UsageError → String
  | .unknownFlag flag => s!"unknown flag {flag}"
  | .missingValue flag => s!"--{flag}: missing value"
  | .badValue flag text => s!"--{flag}: bad value " ++ Text.Quoted.string text
  | .unexpected argument => s!"unexpected argument {argument}"
  | .missingCommand => "expected a command"
  | .missingArgument name => s!"expected \"<{name}>\""
  | .notAllowed flag text => s!"--{flag}: value not allowed: " ++ Text.Quoted.string text
  | .unknownSetting name => "unknown configuration key " ++ Text.Quoted.bytes name

structure Reading where
  form : Option Form := none
  values : List (String × FlagValue) := []
  /-- The operands in their order, each with its arguments. -/
  operands : List (List String) := []

namespace Reading

def value? (r : Reading) (name : String) : Option FlagValue := r.values.lookup name

def flags (r : Reading) : List Flag :=
  match r.form with
  | none => generalFlags
  | some f => f.flags ++ generalFlags

/-- Sets a flag; lists grow. -/
def set (r : Reading) (f : Flag) (v : FlagValue) : Reading :=
  let v := match r.value? f.name, v with
    | some (.texts before), .texts items => .texts (before ++ items)
    | _, v => v
  { r with values := (f.name, v) :: r.values }

def isValue (s : String) : Bool := s = "-" || !s.startsWith "-"

def setText (r : Reading) (f : Flag) (s : String) : Except UsageError Reading :=
  match f.kind.read? s with
  | some v => .ok (r.set f v)
  | none => .error (.badValue f.name s)

/-- Sets a flag to the next argument, which must not look like a flag. -/
def setNext (r : Reading) (f : Flag) : List String → Except UsageError (Reading × List String)
  | [] => .error (.missingValue f.name)
  | s :: rest => do
    let items := match f.kind.read? s with
      | some (.texts items) => items
      | _ => [s]
    if items.all isValue then return (← r.setText f s, rest)
    else throw (.missingValue f.name)

/-- A flag by its name, with its value behind an equals sign or in the next argument. -/
def longFlag (r : Reading) (body : List Char) (rest : List String) :
    Except UsageError (Reading × List String) :=
  let name := String.ofList (body.takeWhile (· ≠ '='))
  match r.flags.find? fun f => f.name = name with
  | none => .error (.unknownFlag s!"--{name}")
  | some f =>
    match body.dropWhile (· ≠ '=') with
    | _ :: value => do return (← r.setText f (String.ofList value), rest)
    | [] => if f.kind = .switch then .ok (r.set f (.switch true), rest) else r.setNext f rest

/-- Flags by their letters. The first that takes a value takes the rest of the letters for it, or
the next argument. -/
def shortFlags (r : Reading) : List Char → List String → Except UsageError (Reading × List String)
  | [], rest => .ok (r, rest)
  | c :: letters, rest =>
    match r.flags.find? fun f => f.short = some c with
    | none => .error (.unknownFlag s!"-{c}")
    | some f =>
      if f.kind = .switch then (r.set f (.switch true)).shortFlags letters rest
      else if letters.isEmpty then r.setNext f rest
      else do return (← r.setText f (String.ofList letters), rest)

/-- An argument without a flag: the command, or its next operand. Behind `--` a list takes all. -/
def operand (r : Reading) (all : Bool) (s : String) (rest : List String) :
    Except UsageError (Reading × List String) :=
  match r.form with
  | none =>
    match forms.find? fun f => f.name = s with
    | some f => .ok ({ r with form := some f }, rest)
    | none => .error (.unexpected s)
  | some f =>
    match f.operands[r.operands.length]? with
    | none => .error (.unexpected s)
    | some o =>
      if o.isList then
        let more := if all then rest else rest.takeWhile isValue
        .ok ({ r with operands := r.operands ++ [s :: more] }, rest.drop more.length)
      else .ok ({ r with operands := r.operands ++ [[s]] }, rest)

/-- Reads arguments. Each round takes one at least. -/
def readAll (r : Reading) : (fuel : Nat) → (all : Bool) → List String → Except UsageError Reading
  | 0, _, _ => .ok r
  | _, _, [] => .ok r
  | fuel + 1, all, s :: rest =>
    if all || isValue s then do
      let (r, rest) ← r.operand all s rest
      r.readAll fuel all rest
    else match s.toList with
      | ['-', '-'] => r.readAll fuel true rest
      | '-' :: '-' :: body => do
        let (r, rest) ← r.longFlag body rest
        r.readAll fuel all rest
      | _ :: letters => do
        let (r, rest) ← r.shortFlags letters rest
        r.readAll fuel all rest
      | [] => .ok r

end Reading

def read (arguments : List String) : Except UsageError Reading :=
  ({} : Reading).readAll (arguments.length + 1) false arguments

end PortCodec.CommandLine
