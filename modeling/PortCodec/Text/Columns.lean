import PortCodec.Text.Utf8

/-!
Texts in columns. A tab ends a cell; cells that stand above each other, line by line without a gap,
form a column, which is two blanks wider than its widest cell. The last part of a line belongs to
no column. A byte that belongs to no character is as wide as one.
-/

namespace PortCodec.Text

def padLeft (n : Nat) (s : String) : String :=
  String.ofList (List.replicate (n - s.length) ' ') ++ s

def padRight (n : Nat) (s : String) : String :=
  s ++ String.ofList (List.replicate (n - s.length) ' ')

namespace Columns

def splitAt (isEnd : Scalar → Bool) : List Scalar → List (List Scalar)
  | [] => [[]]
  | c :: rest =>
    match splitAt isEnd rest with
    | [] => [[c]]
    | part :: parts => if isEnd c then [] :: part :: parts else (c :: part) :: parts

/-- Both kinds of tab end a cell. -/
def isCellEnd (c : Scalar) : Bool := c = .char '\t' || c = .char (Char.ofNat 11)

def isPageEnd (c : Scalar) : Bool := c = .char (Char.ofNat 12)

def lineEnd : Scalar := .char '\n'

/-- A line in cells; the last of them is not part of a column. -/
abbrev Line := List (List Scalar)

def hasCell (j : Nat) (l : Line) : Bool := j + 1 < l.length

def padding : Nat := 2

/-- The width that column `j` has in each line, by the runs of lines that have a cell there. -/
def widths (j : Nat) (lines : List Line) : List Nat :=
  (lines.splitBy fun a b => hasCell j a == hasCell j b).flatMap fun run =>
    let widest := run.foldl (fun w l => max w ((l.getD j []).length)) 0
    run.map fun _ => widest + padding

def fill (j : Nat) (lines : List Line) : List Line :=
  lines.zipWith (fun l w =>
    if hasCell j l then l.modify j fun cell => cell ++ List.replicate (w - cell.length) (.char ' ')
    else l)
    (widths j lines)

def columnCount (lines : List Line) : Nat := lines.foldl (fun n l => max n (l.length - 1)) 0

/-- Lines without a page end between them. -/
def alignPage (page : List Scalar) : List Scalar :=
  let lines := (splitAt (· = lineEnd) page).map (splitAt isCellEnd)
  let filled := (List.range (columnCount lines)).foldl (fun ls j => fill j ls) lines
  [lineEnd].intercalate (filled.map List.flatten)

/-- A text with its cells in columns. No column goes on behind a page end. -/
def align (text : Bytes) : Bytes :=
  Utf8.join ([lineEnd].intercalate ((splitAt isPageEnd (Utf8.scalars text)).map alignPage))

end Columns
end PortCodec.Text
