/-
  Templates: named subtrees to copy into a page.

  A registry keeps templates in the order in which their ids first came; one with an id that is there
  already takes its place.
-/
import PageBuilder.Entries
import PageBuilder.Node.Relabel

namespace PageBuilder

/-- A named subtree. -/
structure Template where
  id : String
  name : String
  schema : Node
deriving DecidableEq

/-- A copy of a template for a tree: its ids differ from each other and from the tree's. -/
def Template.instantiate? (t : Template) (tree : Node) (supply : Node.Supply) :
    Option (Node × Node.Supply) :=
  Node.freshCopy? tree.ids t.schema supply

/-- Templates by id. -/
abbrev Registry := Entries String Template

namespace Registry

/-- Add a template, or put it in place of one with its id. -/
def register (r : Registry) (t : Template) : Registry := Entries.put r t.id t

/-- The templates in order. -/
def templates (r : Registry) : List Template := r.map (·.2)

end Registry
end PageBuilder
