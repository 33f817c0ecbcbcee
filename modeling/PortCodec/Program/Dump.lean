import PortCodec.Program.Listing
import PortCodec.Session

/-!
Programs as files: the linked image, the map of its exported names and its listing.
-/

namespace PortCodec

inductive DumpError
  | link (error : Assembly.LinkError)
  | file (error : FileError)
  /-- A cause from elsewhere, as it was told. -/
  | other (text : String)
  deriving DecidableEq

def DumpError.message : DumpError → String
  | .link error => s!"native: dump: {error.message}"
  | .file error => s!"native: dump: {error.message}"
  | .other text => text

namespace Program

/-- The files of a program that is linked at `base`, by what is added to its name. -/
def dumpFiles (p : Program) (base : UInt64) : Except DumpError (List (String × Bytes)) :=
  match p.link base with
  | .error e => .error (.link e)
  | .ok (image, _) => .ok
    [(".bin", image.toList), (".map", Bytes.ofString (p.symbolMap base)),
     (".s", Bytes.ofString (p.listing base image.toList))]

/-- Writes the files into a directory, which is made if it is missing. -/
def dump (p : Program) (base : UInt64) (directory name : String) (folder : Folder) :
    Except DumpError Folder := do
  let files ← p.dumpFiles base
  let folder ← (folder.makeDirectories directory).mapError .file
  files.foldlM (fun folder (ending, content) =>
    (folder.write (Path.join [directory, name ++ ending]) content).mapError .file) folder

end Program
end PortCodec
