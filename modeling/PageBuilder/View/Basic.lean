/-
  Views: a page as it is drawn.

  A view is a tree of faces.  A face is all that the surface needs to draw one node: its props after
  binding, the value pushed into a controlled input, what it says on hover, whether it is selected,
  which interactions are worth forwarding, and the rows of a data list.
-/
import PageBuilder.Node.Basic
import PageBuilder.DataList
import PageBuilder.Variables.Basic

namespace PageBuilder

/-- Whether a page is edited or used. -/
inductive Mode where
  /-- Bindings, visibility and actions are inert. -/
  | design
  /-- The page runs against its variables. -/
  | interactive
deriving DecidableEq, Repr

/-- What is pushed into a bound node. -/
inductive BoundValue where
  | checked (b : Bool)
  | value (v : Json)
deriving DecidableEq

/-- The interactions worth forwarding; selecting always is. -/
structure Interactions where
  click : Bool := false
  hover : Bool := false
  blur : Bool := false
  valueChange : Bool := false
deriving DecidableEq, Repr

/-- The rows a data list shows, and what it says when it shows none. -/
structure ListView where
  items : List ListItem
  emptyMessage : Option String
deriving DecidableEq, Repr

/-- One node as it is drawn. -/
structure Face where
  id : String
  props : Props
  tooltip : Option String
  animation : Option Animation
  selected : Bool
  bound : Option BoundValue := none
  interactions : Interactions := {}
  list : Option ListView := none
  /-- The text in place of a node of unrecognised type. -/
  placeholder : Option String := none
deriving DecidableEq

/-- A tree of faces. -/
structure View where
  face : Face
  children : List View

namespace View

mutual
/-- Faces of a view, each before those under it. -/
def faces : View → List Face
  | ⟨f, vs⟩ => f :: facesAll vs

def facesAll : List View → List Face
  | [] => []
  | v :: vs => faces v ++ facesAll vs
end

/-- Number of faces. -/
def count (v : View) : Nat := v.faces.length

mutual
/-- The first view with an id, each looked at before those under it. -/
def find? (id : String) : View → Option View
  | ⟨f, vs⟩ => if f.id = id then some ⟨f, vs⟩ else findIn? id vs

def findIn? (id : String) : List View → Option View
  | [] => none
  | v :: vs => (find? id v).or (findIn? id vs)
end

end View
end PageBuilder
