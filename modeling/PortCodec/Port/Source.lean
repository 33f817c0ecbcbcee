import PortCodec.Document.Json
import PortCodec.Document.Toml.Reader
import PortCodec.Document.Yaml.Evaluation
import PortCodec.Files.Folder
import PortCodec.Port.Descriptor
import PortCodec.Port.Preset
import PortCodec.Text.LetterCase

/-!
Where ports come from: a descriptor document, a file whose name tells the document's syntax, or a
preset.
-/

namespace PortCodec

/-- A text from its second line on, without lines that are set in below the first. -/
def furtherLines (text : String) : String :=
  let lines := ((text.splitOn "\n").drop 1).dropWhile fun l => l.startsWith "  "
  String.join (lines.map fun l => "\n" ++ l)

def Document.Yaml.Fault.toFault : Document.Yaml.Fault → PortCodec.Fault
  | .malformed => .unreadable .yaml ""
  | .mistagged text => .unreadable .yaml (furtherLines text)
  | .incomparable => .unmergeable

def Format.decode (format : Format) (document : Bytes) : Except SchemaError Document.Value :=
  let found : Except Fault Document.Value := match format with
    | .json => match Document.Json.parse document with
      | some v => .ok v
      | none => .error (.unreadable format "")
    | .yaml => (Document.Yaml.parse document).mapError (·.toFault)
    | .toml => (Document.Toml.parse document).mapError fun e =>
        .unreadable format (furtherLines e.text)
    | .unknown _ => .error (.unknownFormat format)
  found.mapError fun fault => ⟨"", fault⟩

def Format.ofPath? (path : String) : Option Format :=
  match Text.lowerCase (Path.extension path) with
  | ".json" => some .json
  | ".yaml" => some .yaml
  | ".yml" => some .yaml
  | ".toml" => some .toml
  | _ => none

inductive SourceError
  | unknownPreset (name : String)
  | unsupportedExtension (path : String)
  | unreadableFile (path : String) (error : FileError)
  | invalid (path : String) (error : SchemaError)
  deriving DecidableEq

def SourceError.message : SourceError → String
  | .unknownPreset name =>
    "unknown preset " ++ Text.Quoted.string name ++ " (have " ++
      ", ".intercalate Preset.names ++ ")"
  | .unsupportedExtension path =>
    "schema: unsupported descriptor extension " ++ Text.Quoted.string (Path.extension path)
  | .unreadableFile path error => s!"schema: read {path}: {error.message}"
  | .invalid path error => if error.isAbort then error.message else s!"{path}: {error.message}"

namespace Port

def parse (format : Format) (document : Bytes) : Except SchemaError Port := do
  Descriptor.ofValue (← format.decode document)

def loadFile (folder : Folder) (path : String) : Except SourceError Port :=
  match Format.ofPath? path with
  | none => .error (.unsupportedExtension path)
  | some format =>
    match folder.read path with
    | .error e => .error (.unreadableFile path e)
    | .ok document =>
      match parse format document with
      | .ok p => .ok p
      | .error e => .error (.invalid path e)

def preset (name : String) : Except SourceError Port :=
  match Preset.find? name with
  | some p => .ok p
  | none => .error (.unknownPreset name)

/-- The port that a reference names: a preset behind its mark, or a file. -/
def load (folder : Folder) (reference : String) : Except SourceError Port :=
  if reference.startsWith "preset:" then preset (String.ofList (reference.toList.drop 7))
  else loadFile folder reference

end Port
end PortCodec
