/-
  Paths: names of files and directories, written with slashes.

  Program:        `Path.parent?`.
  Specification:  empty pieces, and pieces that are a point, name nothing of their own; a path that
                  is only a name stands in the current directory, whose path is empty.  Names and
                  whole paths have a greatest length, counted in bytes.
-/
import PageBuilder.Text.Split

namespace PageBuilder.Path

/-- The pieces of a path between its slashes. -/
def pieces (path : String) : List String := (Text.split '/' path.toList).map String.ofList

/-- Pieces as a path. -/
def ofPieces (ps : List String) : String :=
  String.ofList (Text.joined '/' (ps.map String.toList))

/-- The most bytes a path has. -/
def lengthLimit : Nat := 4095

/-- The most bytes a name has. -/
def nameLimit : Nat := 255

/-- Whether a piece is short enough for a name. -/
def fits (piece : String) : Bool := piece.utf8ByteSize ≤ nameLimit

/-- Whether a path ends in a slash, so that it can lead to nothing but a directory. -/
def endsInSlash (path : String) : Bool := path.toList.getLast? == some '/'

/-- The pieces in front of the last name of a path, and an empty one in its place. -/
def around (path : String) : List String :=
  (((pieces path).reverse.dropWhile (· == "")).drop 1).reverse ++ [""]

/-- Whether a piece names nothing of its own. -/
def isIdle (piece : String) : Bool := piece == "" || piece == "."

/-- Pieces, the last one first, without those in front that are idle; the very first piece stays. -/
def dropIdle : List String → List String
  | [] => []
  | [p] => [p]
  | p :: q :: r => if isIdle p then dropIdle (q :: r) else p :: q :: r

/-- **The path of the directory** around a path; neither the top nor the empty path has one. -/
def parent? (path : String) : Option String :=
  match dropIdle (pieces path).reverse with
  | [] => none
  | [p] => if p == "" then none else some ""
  | _ :: r =>
    match dropIdle r with
    | [""] => some "/"
    | r => some (ofPieces r.reverse)

/-- The directory that has to be there before a file is written: `none` if it is the current one. -/
def directory? (path : String) : Option String := (parent? path).filter (· != "")

example : parent? "a/b.json" = some "a" ∧ parent? "b.json" = some "" ∧ parent? "" = none := by
  decide +kernel
example : parent? "/a" = some "/" ∧ parent? "/" = none ∧ parent? "./a" = some "." := by
  decide +kernel
example : parent? "x//y/./z/" = some "x//y" := by decide +kernel
example : around "a/b//" = ["a", ""] ∧ around "/" = [""] := by decide +kernel

end PageBuilder.Path
