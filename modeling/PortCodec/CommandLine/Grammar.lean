import PortCodec.Decimal.Literal
import PortCodec.Text.LetterCase

/-!
The flags and arguments that the program takes.
-/

namespace PortCodec.CommandLine

inductive FlagKind
  | text
  | switch
  | integer
  | natural
  /-- A list, whose items are parted by commas. -/
  | texts
  deriving DecidableEq

inductive FlagValue
  | text (s : String)
  | switch (b : Bool)
  | integer (n : Int)
  | texts (items : List String)
  deriving DecidableEq

/-- Parts a text at commas. A comma behind a backslash is part of an item; an empty last item does
not count. -/
def splitItems : (item : List Char) → List Char → List (List Char)
  | item, [] => if item.isEmpty then [] else [item.reverse]
  | item, '\\' :: c :: rest =>
    if c = ',' then splitItems (',' :: item) rest else splitItems (c :: '\\' :: item) rest
  | item, c :: rest =>
    if c = ',' then item.reverse :: splitItems [] rest else splitItems (c :: item) rest

namespace FlagKind

def read? (kind : FlagKind) (s : String) : Option FlagValue :=
  match kind with
  | .text => some (.text s)
  | .switch =>
    let word := Text.lowerCase s
    if ["true", "1", "yes"].contains word then some (.switch true)
    else if ["false", "0", "no"].contains word then some (.switch false)
    else none
  | .integer => (Decimal.literalInteger? 64 s).map .integer
  | .natural => (Decimal.literalNatural? 64 s).map fun n => .integer n
  | .texts => some (.texts ((splitItems [] s.toList).map String.ofList))

/-- The value of a flag that nothing sets. -/
def zero : FlagKind → FlagValue
  | .text => .text ""
  | .switch => .switch false
  | .integer => .integer 0
  | .natural => .integer 0
  | .texts => .texts []

end FlagKind

structure Flag where
  name : String
  kind : FlagKind := .text
  short : Option Char := none
  default : String := ""
  /-- The environment variable that sets the flag. -/
  environment : Option String := none
  /-- The values that are allowed, if not all are. -/
  choices : List String := []
  hint : String

def Flag.initial (f : Flag) : FlagValue :=
  if f.default = "" then f.kind.zero else (f.kind.read? f.default).getD f.kind.zero

structure Operand where
  name : String
  /-- Whether it takes all arguments up to the next flag, of which there need be none. -/
  isList : Bool := false

structure Form where
  name : String
  hint : String
  operands : List Operand := []
  flags : List Flag := []

def helpFlag : Flag :=
  { name := "help", kind := .switch, short := some 'h', hint := "Show context-sensitive help." }

def generalFlags : List Flag :=
  [helpFlag,
   { name := "log.level", default := "info", environment := some "PORTCTRL_LOG_LEVEL"
     hint := "Log level: trace, debug, info, warn, error" },
   { name := "log.file", environment := some "PORTCTRL_LOG_FILE"
     hint := "Log file path (default: none; logs only to console)" },
   { name := "config", environment := some "PORTCTRL_CONFIG"
     hint := "Configuration file (.json, .yaml or .toml)" },
   { name := "backend", default := "auto", environment := some "PORTCTRL_BACKEND"
     choices := ["auto", "interpreter", "interp", "native", "jit"]
     hint := "Codec backend: auto, interpreter or native" }]

def schemaOperand : Operand := { name := "schema" }

def inspectForm : Form where
  name := "inspect"
  hint := "Show the planned layout of a port"
  operands := [schemaOperand]
  flags :=
    [{ name := "json", kind := .switch, environment := some "PORTCTRL_INSPECT_JSON"
       hint := "Print the layout as JSON" }]

def encodeForm : Form where
  name := "encode"
  hint := "Serialize a controller state to a movie line"
  operands := [schemaOperand, { name := "states", isList := true }]
  flags :=
    [{ name := "set", kind := .texts, short := some 's'
       hint := "Control assignment controller.control=value applied to every state; control may be an index or a name" }]

def decodeForm : Form where
  name := "decode"
  hint := "Parse movie lines into controller states"
  operands := [schemaOperand, { name := "lines", isList := true }]
  flags :=
    [{ name := "input", short := some 'i', default := "-"
       hint := "File to read lines from, - for stdin" }]

def verifyForm : Form where
  name := "verify"
  hint := "Cross-check the native codec against the interpreter"
  operands := [{ name := "schemas", isList := true }]
  flags :=
    [{ name := "iterations", kind := .integer, default := "1000"
       environment := some "PORTCTRL_VERIFY_ITERATIONS", hint := "Random states per port" },
     { name := "seed", kind := .natural, default := "1", environment := some "PORTCTRL_VERIFY_SEED"
       hint := "Random seed" }]

def dumpForm : Form where
  name := "dump"
  hint := "Write the generated machine code of a port"
  operands := [schemaOperand]
  flags :=
    [{ name := "out", short := some 'o', default := ".", environment := some "PORTCTRL_JIT_DUMP"
       hint := "Output directory" },
     { name := "target", default := "host"
       hint := "Calling convention: host, sysv-amd64, win64 or cdecl-386" },
     { name := "print", kind := .switch, hint := "Also print the disassembly" }]

def bindingsForm : Form where
  name := "bindings"
  hint := "Generate C and Rust definitions of a port's state layout"
  operands := [schemaOperand]
  flags :=
    [{ name := "output", short := some 'o', default := "."
       environment := some "PORTCTRL_BINDINGS_OUTPUT", hint := "Output directory" },
     { name := "lang", default := "all", environment := some "PORTCTRL_BINDINGS_LANG"
       choices := ["c", "rust", "all"], hint := "Target language: c, rust, or 'all'" }]

def presetsForm : Form where
  name := "presets"
  hint := "List built-in port descriptors"

def forms : List Form :=
  [inspectForm, encodeForm, decodeForm, verifyForm, dumpForm, bindingsForm, presetsForm]

def allFlags : List Flag := generalFlags ++ forms.flatMap (·.flags)

end PortCodec.CommandLine
