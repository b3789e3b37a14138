/-
  Walking a tree: every node before its children, children in order.

  Program:        `walk stack` — the nodes still to come, given the stack of subtrees not yet begun;
                  the top one is yielded and its children take its place.
  Specification:  `preorder` — a node, then the preorder of each child in turn.
  Crux:           the stack loses a node and gains its children, so the number of nodes in it falls
                  by one at every step.
-/
import PageBuilder.Node.Basic

namespace PageBuilder.Node

/-! ## The walk -/

/-- **The walk** through a stack of subtrees. -/
def walk : List Node → List Node
  | [] => []
  | n :: stack => n :: walk (n.childList ++ stack)
termination_by stack => sizeAll stack
decreasing_by
  rw [sizeAll_append, sizeAll, size_eq]
  omega

/-- Every node of a tree, in the order of the walk. -/
def nodes (n : Node) : List Node := walk [n]

/-- Every id of a tree, in the order of the walk. -/
def ids (n : Node) : List String := n.nodes.map (·.id)

/-- Number of nodes the walk yields. -/
def count (n : Node) : Nat := n.nodes.length

/-! ## The recursive order -/

mutual
/-- A node, then its children's preorders in turn. -/
def preorder : Node → List Node
  | ⟨i, p, none, b⟩ => [⟨i, p, none, b⟩]
  | ⟨i, p, some cs, b⟩ => ⟨i, p, some cs, b⟩ :: preorderAll cs

def preorderAll : List Node → List Node
  | [] => []
  | n :: ns => preorder n ++ preorderAll ns
end

theorem preorder_eq (n : Node) : n.preorder = n :: preorderAll n.childList := by
  obtain ⟨i, p, cs, b⟩ := n
  cases cs <;> simp [preorder, childList, preorderAll]

theorem preorderAll_append (xs ys : List Node) :
    preorderAll (xs ++ ys) = preorderAll xs ++ preorderAll ys := by
  induction xs with
  | nil => rfl
  | cons x xs ih => simp [preorderAll, ih]

theorem walk_eq (stack : List Node) : walk stack = preorderAll stack := by
  induction stack using walk.induct with
  | case1 => simp [walk, preorderAll]
  | case2 n stack ih => rw [walk, ih, preorderAll_append, preorderAll, preorder_eq]; rfl

theorem nodes_eq (n : Node) : n.nodes = n.preorder := by
  simp [nodes, walk_eq, preorderAll]

/-! ## Looking up -/

/-- The first node with an id. -/
def find? (n : Node) (id : String) : Option Node := n.nodes.find? fun m => m.id == id

/-- Whether an id occurs. -/
def contains (n : Node) (id : String) : Bool := (n.find? id).isSome

/-- The first node with a child of an id. -/
def findParent? (n : Node) (id : String) : Option Node :=
  n.nodes.find? fun m => m.childList.any fun c => c.id == id

end PageBuilder.Node
