import PortCodec.Bytes
import PortCodec.Files.Path

/-!
The files around a working directory. Paths are walked name by name, so that each failure has the
cause that a file system would report.
-/

namespace PortCodec

inductive FileFault
  | noEntry
  | notDirectory
  | isDirectory
  | exists
  | nameTooLong
  | invalidName
  deriving DecidableEq

def FileFault.message : FileFault → String
  | .noEntry => "no such file or directory"
  | .notDirectory => "not a directory"
  | .isDirectory => "is a directory"
  | .exists => "file exists"
  | .nameTooLong => "file name too long"
  | .invalidName => "invalid argument"

structure FileError where
  operation : String
  path : String
  fault : FileFault
  deriving DecidableEq

def FileError.message (e : FileError) : String := s!"{e.operation} {e.path}: {e.fault.message}"

/-- A place by the names on the way to it, from the working directory or, behind a first name `/`,
from the top. Places above the working directory start with pairs of dots. -/
abbrev Place := List String

structure Folder where
  files : List (Place × Bytes) := []
  directories : List Place := []

namespace Folder

def file? (f : Folder) (p : Place) : Option Bytes := (f.files.find? fun e => e.1 = p).map (·.2)

/-- The working directory, those above it and the top. -/
def isAncestor (p : Place) : Bool := p.all (· = "..") || p = ["/"]

/-- Directories are the ancestors, those that were made and those that hold something. -/
def isDirectory (f : Folder) (p : Place) : Bool :=
  isAncestor p || f.directories.any (fun d => p.isPrefixOf d) ||
    f.files.any fun e => p.isPrefixOf e.1 && p ≠ e.1

def parent (p : Place) : Place :=
  if p = ["/"] then p else if p.all (· = "..") then p ++ [".."] else p.dropLast

/-- The place that a path names where there are no links. -/
def placeOf (path : String) : Place :=
  (Path.names path).foldl (fun p n => if n = ".." then parent p else p ++ [n])
    (if Path.isAbsolute path then ["/"] else [])

def pathOf : Place → String
  | [] => "."
  | "/" :: rest => "/" ++ "/".intercalate rest
  | names => "/".intercalate names

/-- Walks names from a place. The last name need not exist; all before it have to be directories. -/
def walk (f : Folder) : Place → List String → Except FileFault Place
  | place, [] => .ok place
  | place, n :: rest =>
    if (f.file? place).isSome then .error .notDirectory
    else if !f.isDirectory place then .error .noEntry
    else if 255 < n.utf8ByteSize then .error .nameTooLong
    else if n = ".." then f.walk (parent place) rest
    else f.walk (place ++ [n]) rest

def locate (f : Folder) (path : String) : Except FileFault Place :=
  if path = "" then .error .noEntry
  else if path.toList.contains (Char.ofNat 0) then .error .invalidName
  else if 4096 ≤ path.utf8ByteSize then .error .nameTooLong
  else f.walk (if Path.isAbsolute path then ["/"] else []) (Path.names path)

/-- Whether the place of a path is a directory; a path that ends in a slash names nothing else. -/
def find (f : Folder) (path : String) : Except FileFault Bool := do
  let place ← f.locate path
  if (f.file? place).isSome then
    if path.endsWith "/" then .error .notDirectory else return false
  else if f.isDirectory place then return true
  else .error .noEntry

def read (f : Folder) (path : String) : Except FileError Bytes :=
  match f.find path, f.locate path with
  | .ok false, .ok place => .ok ((f.file? place).getD [])
  | .ok true, _ => .error ⟨"read", path, .isDirectory⟩
  | .error fault, _ => .error ⟨"open", path, fault⟩
  | _, .error fault => .error ⟨"open", path, fault⟩

def write (f : Folder) (path : String) (content : Bytes) : Except FileError Folder :=
  match f.locate path with
  | .error fault => .error ⟨"open", path, fault⟩
  | .ok place =>
    if f.isDirectory place || path.endsWith "/" then .error ⟨"open", path, .isDirectory⟩
    else .ok { f with files := f.files.filter (fun e => e.1 ≠ place) ++ [(place, content)] }

/-- Writes over a part of a file. What is missing before the part is filled with zeros. -/
def overwrite (f : Folder) (place : Place) (position : Nat) (part : Bytes) : Folder :=
  let patched (old : Bytes) : Bytes :=
    old.take position ++ List.replicate (position - old.length) 0 ++ part ++
      old.drop (position + part.length)
  { f with files := f.files.map fun e => if e.1 = place then (e.1, patched e.2) else e }

def makeDirectory (f : Folder) (path : String) : Except FileError Folder :=
  match f.locate path with
  | .error fault => .error ⟨"mkdir", path, fault⟩
  | .ok place =>
    if (f.file? place).isSome || f.isDirectory place then .error ⟨"mkdir", path, .exists⟩
    else .ok { f with directories := place :: f.directories }

/-- A path up to its last name, with the slash before that. -/
def upToLastName (path : String) : String :=
  let reversed := (path.toList.reverse.dropWhile (· = '/')).dropWhile (· ≠ '/')
  String.ofList reversed.reverse

def makeAll (f : Folder) : (fuel : Nat) → (path : String) → Except FileError Folder
  | 0, _ => .ok f
  | fuel + 1, path =>
    match f.find path with
    | .ok true => .ok f
    | .ok false => .error ⟨"mkdir", path, .notDirectory⟩
    | .error _ => do
      let above := upToLastName path
      let f ← if above = "" then .ok f else f.makeAll fuel above
      match f.makeDirectory path with
      | .ok f => .ok f
      | .error e => match f.find path with
        | .ok true => .ok f
        | _ => .error e

def makeDirectories (f : Folder) (path : String) : Except FileError Folder :=
  f.makeAll (path.length + 1) path

end Folder
end PortCodec
