/-
  Nodes without a kind, and what edits leave of them.

  Nothing asks a node without a kind for a list of children or for the lack of one, so what it came
  with is all there is to go by.  Two trees are compared by their nodes without a kind, each counted
  as often as it occurs and paired with one of the other tree.

  Programs:       `kindless` — the nodes of a tree that have no kind.
  Specification:  `Remnant` — a node that lost nothing but children; `Leaves` — each node on the right
                  is what is left of a node of its own on the left.
  Crux:           `leaves_fill` — what happens at a place is all that happens: the nodes on the way
                  keep their lists and lose at most the id that is taken out.
-/
import Mathlib.Algebra.Order.Group.Multiset
import Mathlib.Tactic.Abel
import PageBuilder.Proofs.Node.Place

namespace PageBuilder.Node

/-! ## What is left of a node -/

/-- **What is left of a node** without a kind: its list of children is there or not as it was, and no
child was added. -/
structure Remnant (n m : Node) : Prop where
  id : m.id = n.id
  typeName : m.props.typeName = n.props.typeName
  list : m.children.isSome = n.children.isSome
  below : (m.childList.map (·.id)).Sublist (n.childList.map (·.id))

theorem Remnant.refl (n : Node) : Remnant n n := ⟨rfl, rfl, rfl, List.Sublist.refl _⟩

theorem Remnant.trans {n m k : Node} (h : Remnant n m) (h' : Remnant m k) : Remnant n k :=
  ⟨h'.id.trans h.id, h'.typeName.trans h.typeName, h'.list.trans h.list, h'.below.trans h.below⟩

instance : IsTrans Node Remnant := ⟨fun _ _ _ => Remnant.trans⟩

/-- **What is left of some nodes**: each on the right is left of a node of its own on the left. -/
def Leaves (ns ms : Multiset Node) : Prop := ∃ ks ≤ ns, Multiset.Rel Remnant ks ms

variable {ns ms ks ls : Multiset Node}

theorem Leaves.of_le (h : ms ≤ ns) : Leaves ns ms :=
  ⟨ms, h, Multiset.rel_refl_of_refl_on fun n _ => Remnant.refl n⟩

theorem Leaves.refl (ns : Multiset Node) : Leaves ns ns := .of_le (le_refl ns)

/-- What is left of two lots of nodes is left of both together. -/
theorem Leaves.add (h : Leaves ns ms) (h' : Leaves ks ls) : Leaves (ns + ks) (ms + ls) := by
  obtain ⟨os, hle, hrel⟩ := h
  obtain ⟨os', hle', hrel'⟩ := h'
  exact ⟨os + os', add_le_add hle hle', hrel.add hrel'⟩

/-- What is left in two turns is left. -/
theorem Leaves.trans (h : Leaves ns ms) (h' : Leaves ms ks) : Leaves ns ks := by
  obtain ⟨os, hle, hrel⟩ := h
  obtain ⟨ps, hle', hrel'⟩ := h'
  -- what is paired with a part of the middle is a part of the left
  obtain ⟨qs, rfl⟩ := Multiset.le_iff_exists_add.1 hle'
  obtain ⟨os, os', hpart, -, rfl⟩ := Multiset.rel_add_right.1 hrel
  exact ⟨os, (Multiset.le_add_right os os').trans hle, hpart.trans Remnant hrel'⟩

/-! ## The nodes of a tree that have no kind -/

/-- The nodes of some trees that have no kind. -/
def kindlessAll (ns : List Node) : Multiset Node :=
  ((ns.flatMap nodes).filter fun n => n.kind?.isNone : List Node)

/-- **The nodes of a tree that have no kind**. -/
def kindless (n : Node) : Multiset Node := kindlessAll [n]

/-- A node, if it has no kind. -/
def own (n : Node) : Multiset Node := if n.kind?.isNone then {n} else 0

@[simp] theorem kindlessAll_nil : kindlessAll [] = 0 := rfl

/-- The nodes without a kind of two lists are those of the one and of the other. -/
theorem kindlessAll_append (xs ys : List Node) :
    kindlessAll (xs ++ ys) = kindlessAll xs + kindlessAll ys := by
  unfold kindlessAll
  rw [List.flatMap_append, List.filter_append, Multiset.coe_add]

theorem kindlessAll_singleton (n : Node) : kindlessAll [n] = n.kindless := rfl

/-- The nodes without a kind of a tree: the root, if it is one, and those under its children. -/
theorem kindless_eq (n : Node) : n.kindless = n.own + kindlessAll n.childList := by
  unfold kindless kindlessAll own
  rw [List.flatMap_singleton, nodes_cons, List.filter_cons]
  split <;> simp

theorem own_of_kind? {n : Node} {k : Kind} (h : n.kind? = some k) : n.own = 0 := by
  unfold own
  rw [h]
  rfl

/-- What is left of a node by itself, which must not lose its kind. -/
theorem leaves_own {n m : Node} (hkind : m.kind? = n.kind?) (h : Remnant n m) :
    Leaves n.own m.own := by
  unfold own
  rw [hkind]
  split
  · exact ⟨{n}, le_refl _, Multiset.Rel.zero.cons h⟩
  · exact .refl 0

/-- What is left of a tree when the root alone changes, its kind and its children aside. -/
theorem leaves_of_remnant {n m : Node} (hkind : m.kind? = n.kind?) (h : Remnant n m)
    (hlist : m.childList = n.childList) : Leaves n.kindless m.kindless := by
  rw [kindless_eq n, kindless_eq m, hlist]
  exact (leaves_own hkind h).add (.refl _)

/-! ## What an edit at a place leaves -/

theorem kindless_over (l : Level) (xs : List Node) : (l.over xs).kindless
    = (l.over xs).own + (kindlessAll l.left + (kindlessAll xs + kindlessAll l.right)) := by
  rw [kindless_eq, ← kindlessAll_append, ← kindlessAll_append]
  rfl

/-- One level: what is put there may bring nodes along. -/
theorem leaves_over (l : Level) {xs ys : List Node}
    (h : Leaves (kindlessAll xs + ns) (kindlessAll ys))
    (hids : (ys.map (·.id)).Sublist (xs.map (·.id))) :
    Leaves ((l.over xs).kindless + ns) (l.over ys).kindless := by
  have hnode : Remnant (l.over xs) (l.over ys) := by
    refine ⟨rfl, rfl, rfl, ?_⟩
    show ((l.left ++ (ys ++ l.right)).map _).Sublist ((l.left ++ (xs ++ l.right)).map _)
    rw [List.map_append, List.map_append, List.map_append, List.map_append]
    exact (hids.append_right _).append_left _
  -- what is brought along is counted at the place, and not beside the tree
  have hmoved : (l.over xs).kindless + ns = (l.over xs).own
      + (kindlessAll l.left + ((kindlessAll xs + ns) + kindlessAll l.right)) := by
    rw [kindless_over]
    abel
  -- the level may itself be without a kind: it loses at most ids of its list
  have hown : Leaves (l.over xs).own (l.over ys).own := leaves_own rfl hnode
  rw [hmoved, kindless_over]
  exact hown.add ((Leaves.refl _).add (h.add (.refl _)))

/-- **At a place**: what is left there, of what was there and what is brought along, is what is left
of the tree. -/
theorem leaves_fill (l : Level) (p : Place) {xs ys : List Node}
    (h : Leaves (kindlessAll xs + ns) (kindlessAll ys))
    (hids : (ys.map (·.id)).Sublist (xs.map (·.id))) :
    Leaves ((Place.fill l p xs).kindless + ns) (Place.fill l p ys).kindless := by
  induction p generalizing l with
  | nil => exact leaves_over l h hids
  | cons m p ih =>
    -- one level up the list stays as long, and the ids in it the same
    refine leaves_over l (ih m) ?_
    rw [List.map_singleton, List.map_singleton, Place.id_fill, Place.id_fill]

theorem leaves_plug (p : Place) {n m : Node} (h : Leaves (n.kindless + ns) m.kindless)
    (hid : m.id = n.id) : Leaves ((p.plug n).kindless + ns) (p.plug m).kindless := by
  cases p with
  | nil => exact h
  | cons l p =>
    rw [Place.plug_cons, Place.plug_cons]
    refine leaves_fill l p h ?_
    rw [List.map_singleton, List.map_singleton, hid]

end PageBuilder.Node
