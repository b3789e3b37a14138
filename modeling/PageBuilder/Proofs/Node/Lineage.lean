/-
  Lineages: the nodes of a tree, each with the nodes it is under.

  Program:        `lineages`.
  Specification:  `map_node_lineages` — the nodes are those of the walk, in its order;
                  `mem_lineages_child` and `above_cases` — what a node is under is its parent and what
                  that is under.
  Crux:           what is above the root of a subtree is above every node of it, and behind all that
                  the node is under within the subtree.
-/
import Mathlib.Data.List.Basic
import PageBuilder.Proofs.Node.Place

namespace PageBuilder.Node

/-- A node of a tree, and the nodes it is under, the nearest first. -/
structure Lineage where
  node : Node
  above : List Node

mutual
/-- The nodes of a subtree that is under some nodes. -/
def lineagesUnder (above : List Node) : Node → List Lineage
  | ⟨i, p, none, b⟩ => [⟨⟨i, p, none, b⟩, above⟩]
  | ⟨i, p, some cs, b⟩ =>
    ⟨⟨i, p, some cs, b⟩, above⟩ :: lineagesUnderAll (⟨i, p, some cs, b⟩ :: above) cs

def lineagesUnderAll (above : List Node) : List Node → List Lineage
  | [] => []
  | n :: ns => lineagesUnder above n ++ lineagesUnderAll above ns
end

/-- **The lineages of a tree**, in the order of the walk. -/
def lineages (n : Node) : List Lineage := lineagesUnder [] n

theorem lineagesUnderAll_eq (above : List Node) (ns : List Node) :
    lineagesUnderAll above ns = ns.flatMap (lineagesUnder above) := by
  induction ns with
  | nil => rfl
  | cons n ns ih => rw [lineagesUnderAll, ih, List.flatMap_cons]

/-- The lineages of a tree: that of the root, then those of its children, under the root as well. -/
theorem lineagesUnder_eq (above : List Node) (n : Node) :
    lineagesUnder above n = ⟨n, above⟩ :: n.childList.flatMap (lineagesUnder (n :: above)) := by
  obtain ⟨i, p, cs, b⟩ := n
  cases cs with
  | none => rfl
  | some cs => rw [lineagesUnder, lineagesUnderAll_eq]; rfl

/-- The lineages of a tree have its nodes, in the order of the walk. -/
theorem map_node_lineagesUnder (above : List Node) (n : Node) :
    (lineagesUnder above n).map (·.node) = n.nodes := by
  induction n using induct generalizing above with
  | step n ih =>
    rw [lineagesUnder_eq, nodes_cons, List.map_cons, List.map_flatMap]
    exact congrArg _ (List.flatMap_congr fun c hc => ih c hc (n :: above))

/-- **The nodes of the lineages** are those of the walk. -/
theorem map_node_lineages (n : Node) : n.lineages.map (·.node) = n.nodes :=
  map_node_lineagesUnder [] n

theorem map_id_lineages (n : Node) : n.lineages.map (·.node.id) = n.ids := by
  unfold ids
  rw [← map_node_lineages, List.map_map]
  rfl

variable {n : Node} {above : List Node} {l : Lineage}

/-- What is above a subtree is above every node of it. -/
theorem suffix_of_mem_lineagesUnder (h : l ∈ lineagesUnder above n) : above <:+ l.above := by
  induction n using induct generalizing above with
  | step n ih =>
    rw [lineagesUnder_eq] at h
    rcases List.mem_cons.1 h with rfl | h
    · exact List.suffix_rfl
    · obtain ⟨c, hc, h⟩ := List.mem_flatMap.1 h
      exact (List.suffix_cons n above).trans (ih c hc h)

/-- A child is under its parent, and under all that its parent is under. -/
theorem mem_lineages_child {c : Node} (h : l ∈ lineagesUnder above n)
    (hc : c ∈ l.node.childList) : ⟨c, l.node :: l.above⟩ ∈ lineagesUnder above n := by
  induction n using induct generalizing above with
  | step n ih =>
    rw [lineagesUnder_eq] at h ⊢
    rcases List.mem_cons.1 h with rfl | h
    · refine List.mem_cons_of_mem _ (List.mem_flatMap.2 ⟨c, hc, ?_⟩)
      rw [lineagesUnder_eq]
      exact List.mem_cons_self
    · obtain ⟨d, hd, h⟩ := List.mem_flatMap.1 h
      exact List.mem_cons_of_mem _ (List.mem_flatMap.2 ⟨d, hd, ih d hd h⟩)

/-- What a node is under stands above the subtree, or is a node of it that has children. -/
theorem above_cases (h : l ∈ lineagesUnder above n) {a : Node} (ha : a ∈ l.above) :
    a ∈ above ∨ (a ∈ n.nodes ∧ a.childList ≠ []) := by
  induction n using induct generalizing above with
  | step n ih =>
    rw [lineagesUnder_eq] at h
    rcases List.mem_cons.1 h with rfl | h
    · exact Or.inl ha
    · obtain ⟨c, hc, h⟩ := List.mem_flatMap.1 h
      rw [nodes_cons]
      rcases ih c hc h with habove | ⟨hnode, hchildren⟩
      · rcases List.mem_cons.1 habove with rfl | habove
        · exact Or.inr ⟨List.mem_cons_self, List.ne_nil_of_mem hc⟩
        · exact Or.inl habove
      · exact Or.inr ⟨List.mem_cons_of_mem _ (List.mem_flatMap.2 ⟨c, hc, hnode⟩), hchildren⟩

end PageBuilder.Node
