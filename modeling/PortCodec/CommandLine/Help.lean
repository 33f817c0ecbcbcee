import PortCodec.CommandLine.Grammar
import PortCodec.Port.Preset
import PortCodec.Text.Columns

/-!
Help texts.
-/

namespace PortCodec.CommandLine.Help

def description : String :=
  "Controller port codec compiler\n" ++
  "  Version: dev (unknown)\n" ++
  "           unknown\n" ++
  "  Source:  https://github.com/Alia5/portctrl\n"

def flagRow (f : Flag) : String :=
  let short := match f.short with
    | some c => s!"-{c}, "
    | none => "    "
  let value := if f.kind = .switch then "" else s!"={f.name.toUpper}"
  s!"  {short}--{f.name}{value}\t{f.hint}\n"

def operandText (o : Operand) : String := if o.isList then s!"[<{o.name}> ...]" else s!"<{o.name}>"

def table (rows : String) : String := Text.Utf8.repaired (Text.Columns.align rows)

def flagTable (flags : List Flag) : String :=
  table ("Flags:\n" ++ String.join (flags.map flagRow))

def formText (f : Form) : String :=
  "Usage: portctrl " ++ " ".intercalate (f.name :: f.operands.map operandText ++ ["[flags]"]) ++
    s!"\n\n{f.hint}\n\n" ++ flagTable (generalFlags ++ f.flags)

def programText : String :=
  "Usage: portctrl <command> [flags]\n\n" ++ description ++ "\n" ++ flagTable generalFlags ++
    "\nCommands:\n" ++ table (String.join (forms.map fun f => s!"  {f.name}\t{f.hint}\n"))

def presetLine : String :=
  "\nPresets: " ++ ", ".intercalate (Preset.names.map fun n => "preset:" ++ n) ++ "\n"

/-- The help on a command, or on the program, which lists presets unless the style is plain. -/
def text (style : String) (form : Option Form) : String :=
  match form with
  | some f => formText f
  | none => if style = "" || style = "plain" then programText else programText ++ presetLine

end PortCodec.CommandLine.Help
