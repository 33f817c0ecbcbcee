import PortCodec.Bindings.Header
import PortCodec.Bindings.RustModule
import PortCodec.Session
import PortCodec.Text.Quoted

/-!
Writing bindings to files.
-/

namespace PortCodec.Bindings

inductive Error
  | unknownLanguage (name : String)
  | directory (error : FileError)
  | file (name : String) (error : FileError)
  deriving DecidableEq

def Error.message : Error → String
  | .unknownLanguage name => "unknown binding language " ++ Text.Quoted.string name
  | .directory error => s!"create output directory: {error.message}"
  | .file name error => s!"create {name}: {error.message}"

inductive Language
  | c
  | rust
  deriving DecidableEq

namespace Language

def product : Language → String
  | .c => "C header"
  | .rust => "Rust module"

def fileName : Language → Summary → String
  | .c, s => Header.fileName s
  | .rust, s => RustModule.fileName s

def text : Language → Summary → Bytes
  | .c, s => Header.text s
  | .rust, s => RustModule.text s

def ofName? : String → Option (List Language)
  | "c" => some [.c]
  | "rust" => some [.rust]
  | "all" => some [.c, .rust]
  | _ => none

end Language

def generateOne (directory : String) (p : Port) (language : Language) : Session Error Unit := do
  Session.setFolder (← Session.lift .directory ((← Session.folder).makeDirectories directory))
  let s := summarize p (Layout.plan p)
  Session.log .debug "Collected layout metadata"
    [("port", .text s.port), ("controls", .int s.controls.length), ("layout", .text s.fingerprint)]
  let name := language.fileName s
  let path := Path.join [directory, name]
  Session.log .debug s!"Generating {language.product}" [("file", .text path)]
  Session.setFolder (← Session.lift (.file name) ((← Session.folder).write path (language.text s)))
  Session.log .info s!"Generated {language.product}" [("file", .text path)]

def generate (directory : String) (p : Port) (language : String) : Session Error Unit :=
  match Language.ofName? language with
  | some languages => languages.forM (generateOne directory p)
  | none => throw (.unknownLanguage language)

end PortCodec.Bindings
