/-
  Edits of a tree.

  Programs:       `insertChild?`, `updateProps?`, `updateBehavior?`, `delete?`.
  Specification:  an edit addresses the FIRST node with an id, in the order of the walk, and returns
                  the tree with that node alone replaced — or nothing when there is no such node or
                  nothing changes.
  Crux:           `editAt` keeps apart "no such node here" and "found, but the edit does not apply":
                  after the first it goes on with the next sibling, after the second it stops.
-/
import PageBuilder.Node.Walk

namespace PageBuilder.Node

/-- What became of an edit in a part of a tree. -/
inductive Edit (α : Type) where
  /-- No node with the id here. -/
  | absent
  /-- The node is here, and the edit does not apply to it. -/
  | refused
  /-- The part, edited. -/
  | changed (a : α)
deriving DecidableEq, Repr

namespace Edit

def map {α β : Type} (f : α → β) : Edit α → Edit β
  | .absent => .absent
  | .refused => .refused
  | .changed a => .changed (f a)

def toOption {α : Type} : Edit α → Option α
  | .changed a => some a
  | _ => none

def ofOption {α : Type} : Option α → Edit α
  | some a => .changed a
  | none => .refused

end Edit

/-! ## Editing at an id -/

mutual
/-- **The edit** of the first node with an id. -/
def editAt (id : String) (f : Node → Option Node) : Node → Edit Node
  | ⟨i, p, none, b⟩ => if i = id then .ofOption (f ⟨i, p, none, b⟩) else .absent
  | ⟨i, p, some cs, b⟩ =>
    if i = id then .ofOption (f ⟨i, p, some cs, b⟩)
    else (editAtAll id f cs).map fun cs => ⟨i, p, some cs, b⟩

def editAtAll (id : String) (f : Node → Option Node) : List Node → Edit (List Node)
  | [] => .absent
  | n :: ns =>
    match editAt id f n with
    | .absent => (editAtAll id f ns).map (n :: ·)
    | .refused => .refused
    | .changed m => .changed (m :: ns)
end

mutual
/-- Take the first child with an id out, with everything under it; a child is looked at before what
is under it. -/
def removeChild? (id : String) : Node → Option Node
  | ⟨_, _, none, _⟩ => none
  | ⟨i, p, some cs, b⟩ => (removeFrom? id cs).map fun cs => ⟨i, p, some cs, b⟩

def removeFrom? (id : String) : List Node → Option (List Node)
  | [] => none
  | n :: ns =>
    if n.id = id then some ns
    else
      match removeChild? id n with
      | some m => some (m :: ns)
      | none => (removeFrom? id ns).map (n :: ·)
end

/-! ## The four edits -/

/-- The first id of a new subtree that a tree has already. -/
def duplicateId? (tree new : Node) : Option String := new.ids.find? fun i => tree.ids.contains i

/-- Put a child behind the others, in a container. -/
def appendChild? (child n : Node) : Option Node :=
  if n.isContainer then some { n with children := some (n.childList ++ [child]) } else none

/-- Put a subtree under a container, unless one of its ids is taken. -/
def insertChild? (tree : Node) (container : String) (new : Node) : Option Node :=
  if (duplicateId? tree new).isSome then none
  else (editAt container (appendChild? new) tree).toOption

/-- Merge props into a node, if that fits and changes something. -/
def mergeProps? (partials : Json.Fields) (n : Node) : Option Node :=
  match n.props.merged? partials with
  | .error _ => none
  | .ok p => if p.same n.props then none else some { n with props := p }

/-- Merge props into the node with an id. -/
def updateProps? (tree : Node) (id : String) (partials : Json.Fields) : Option Node :=
  (editAt id (mergeProps? partials) tree).toOption

/-- Patch the behavior of a node, if that changes something. -/
def patchBehavior? (patch : Behavior.Patch) (n : Node) : Option Node :=
  let b := patch.apply n.behavior
  if b.same n.behavior then none else some { n with behavior := b }

/-- Patch the behavior of the node with an id. -/
def updateBehavior? (tree : Node) (id : String) (patch : Behavior.Patch) : Option Node :=
  (editAt id (patchBehavior? patch) tree).toOption

/-- Ids that are never deleted from a tree: its root's and the reserved one. -/
def isProtected (tree : Node) (id : String) : Bool := tree.id == id || id == rootId

/-- Delete the node with an id and everything under it. -/
def delete? (tree : Node) (id : String) : Option Node :=
  if tree.isProtected id then none else removeChild? id tree

end PageBuilder.Node
