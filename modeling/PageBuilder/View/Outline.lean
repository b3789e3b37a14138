/-
  The outline of a view: one line of text per face, two blanks deeper than the one it is under.
-/
import PageBuilder.View.Render

namespace PageBuilder

namespace Face

/-- The prop that says most about a node. -/
def caption? (f : Face) : Option String :=
  match f.placeholder with
  | some s => some s
  | none =>
    match f.props with
    | .known .button s => s.cells.1
    | .known .badge s => s.cells.1
    | .known .tag s => s.cells.1
    | .known .toggle s => s.cells.1
    | .known .checkbox s => s.cells.1
    | .known .text s => s.cells.1
    | .known .quote s => s.cells.1
    | .known .dataList s => s.cells.1
    | .known .alert s => s.cells.1
    | .known .statistic s => s.cells.2.1
    | .known .input s => s.cells.1
    | _ => none

def boundText : BoundValue → String
  | .checked b => " [checked=" ++ (if b then "true" else "false") ++ "]"
  | .value v => " [value=" ++ v.display ++ "]"

def listText (l : ListView) : String :=
  match l.emptyMessage with
  | some m => " (" ++ m ++ ")"
  | none => " (" ++ toString l.items.length ++ " items)"

/-- An optional part of a line. -/
def part {α : Type} (text : α → String) (a : Option α) : String := (a.map text).getD ""

/-- The line of a face: type, id, caption, value, rows, tooltip, selection. -/
def line (f : Face) : String :=
  f.props.typeName ++ " #" ++ f.id
    ++ part (fun s => " \"" ++ s ++ "\"") f.caption?
    ++ part boundText f.bound
    ++ part listText f.list
    ++ part (fun s => " tooltip=\"" ++ s ++ "\"") f.tooltip
    ++ (if f.selected then "  <- selected" else "")

end Face

namespace View

mutual
/-- The lines of a view whose first line stands at a depth. -/
def outlineLines (depth : Nat) : View → List String
  | ⟨f, vs⟩ =>
    (String.ofList (List.replicate (2 * depth) ' ') ++ f.line) :: outlineLinesAll (depth + 1) vs

def outlineLinesAll (depth : Nat) : List View → List String
  | [] => []
  | v :: vs => outlineLines depth v ++ outlineLinesAll depth vs
end

/-- **The outline**. -/
def outline (v : View) : String := String.intercalate "\n" (outlineLines 0 v)

end View
end PageBuilder
