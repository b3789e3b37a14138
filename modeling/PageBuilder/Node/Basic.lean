/-
  Nodes: a page is a tree of them.

  A node has an id, props, behavior, and either a list of children or none at all: an absent list and
  an empty one are different.  Nodes of a container kind have a list and those of other kinds have
  none; a node without a kind keeps what it came with.

  The functions below recurse through the tree and its lists of children together, one function for
  a node and one for a list, so that each is a plain structural recursion with plain equations.
-/
import PageBuilder.Props.Palette
import PageBuilder.Behavior

namespace PageBuilder

/-- A node with everything under it. -/
structure Node where
  id : String
  props : Props
  children : Option (List Node)
  behavior : Behavior

namespace Node

/-- Id of the root of a fresh page; it can never be deleted. -/
def rootId : String := "root-container"

/-- A node with nothing under it: containers have an empty list, all others none. -/
def make (id : String) (props : Props) : Node :=
  ⟨id, props, if props.isContainer then some [] else none, {}⟩

/-- The children, none counting as no list. -/
def childList (n : Node) : List Node := n.children.getD []

/-- Append a child; nothing happens without a list. -/
def withChild (n : Node) (child : Node) : Node :=
  { n with children := n.children.map (· ++ [child]) }

/-- Append several children. -/
def withChildren (n : Node) (children : List Node) : Node := children.foldl withChild n

/-- The kind, if there is one. -/
abbrev kind? (n : Node) : Option Kind := n.props.kind?

/-- Whether children may be put under the node. -/
def isContainer (n : Node) : Bool := n.props.isContainer && n.children.isSome

/-! ## Size and identity -/

mutual
/-- Nodes in a tree. -/
def size : Node → Nat
  | ⟨_, _, none, _⟩ => 1
  | ⟨_, _, some cs, _⟩ => 1 + sizeAll cs

/-- Nodes in a list of trees. -/
def sizeAll : List Node → Nat
  | [] => 0
  | n :: ns => size n + sizeAll ns
end

mutual
def decEq : (a b : Node) → Decidable (a = b)
  | ⟨i, p, none, b⟩, ⟨j, q, none, c⟩ =>
    decidable_of_iff (i = j ∧ p = q ∧ b = c) (by simp)
  | ⟨_, _, none, _⟩, ⟨_, _, some _, _⟩ => isFalse (by simp)
  | ⟨_, _, some _, _⟩, ⟨_, _, none, _⟩ => isFalse (by simp)
  | ⟨i, p, some cs, b⟩, ⟨j, q, some ds, c⟩ =>
    match decEqAll cs ds with
    | isTrue h => decidable_of_iff (i = j ∧ p = q ∧ b = c) (by simp [h])
    | isFalse h => isFalse (by simp [h])

def decEqAll : (xs ys : List Node) → Decidable (xs = ys)
  | [], [] => isTrue rfl
  | [], _ :: _ => isFalse (by simp)
  | _ :: _, [] => isFalse (by simp)
  | x :: xs, y :: ys =>
    match decEq x y, decEqAll xs ys with
    | isTrue h, isTrue hs => isTrue (by rw [h, hs])
    | isFalse h, _ => isFalse fun e => h (List.cons.inj e).1
    | _, isFalse hs => isFalse fun e => hs (List.cons.inj e).2
end

instance : DecidableEq Node := decEq

mutual
/-- Equal trees, as an edit means it: props and behavior compare by what they hold. -/
def same : Node → Node → Bool
  | ⟨i, p, none, b⟩, ⟨j, q, none, c⟩ => i == j && p.same q && b.same c
  | ⟨i, p, some cs, b⟩, ⟨j, q, some ds, c⟩ => i == j && p.same q && b.same c && sameAll cs ds
  | _, _ => false

def sameAll : List Node → List Node → Bool
  | [], [] => true
  | x :: xs, y :: ys => same x y && sameAll xs ys
  | _, _ => false
end

/-! ## Small facts -/

theorem size_eq (n : Node) : n.size = 1 + sizeAll n.childList := by
  obtain ⟨i, p, cs, b⟩ := n
  cases cs <;> simp [size, childList, sizeAll]

theorem sizeAll_append (xs ys : List Node) : sizeAll (xs ++ ys) = sizeAll xs + sizeAll ys := by
  induction xs with
  | nil => simp [sizeAll]
  | cons x xs ih => simp [sizeAll, ih]; omega

@[simp] theorem childList_make (id : String) (props : Props) : (make id props).childList = [] := by
  unfold make childList
  cases props.isContainer <;> rfl

end Node
end PageBuilder
