/-!
Slash-separated paths: their extension, their shortest form, and how they join.
-/

namespace PortCodec.Path

/-- The last name's text from its last dot on, empty if it has none. -/
def extension (path : String) : String :=
  let tail := path.toList.reverse.takeWhile fun c => c ≠ '.' && c ≠ '/'
  match path.toList.reverse.drop tail.length with
  | '.' :: _ => String.ofList ('.' :: tail.reverse)
  | _ => ""

def isAbsolute (path : String) : Bool := path.startsWith "/"

/-- The names between slashes, without empty ones and single dots. -/
def names (path : String) : List String :=
  (path.splitOn "/").filter fun n => n ≠ "" && n ≠ "."

/-- Takes back a name for each pair of dots, last name first. Above the top of an absolute path is
nothing. -/
def resolve (absolute : Bool) : (done : List String) → List String → List String
  | done, [] => done
  | done, ".." :: rest =>
    match done with
    | [] => if absolute then resolve absolute [] rest else resolve absolute [".."] rest
    | ".." :: _ => resolve absolute (".." :: done) rest
    | _ :: outer => resolve absolute outer rest
  | done, n :: rest => resolve absolute (n :: done) rest

def clean (path : String) : String :=
  let absolute := isAbsolute path
  let inner := "/".intercalate (resolve absolute [] (names path)).reverse
  if absolute then "/" ++ inner else if inner = "" then "." else inner

def join (parts : List String) : String :=
  match parts.filter (· ≠ "") with
  | [] => ""
  | parts => clean ("/".intercalate parts)

end PortCodec.Path
