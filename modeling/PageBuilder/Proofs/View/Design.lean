/-
  What is drawn of a page in the editor, and what is exported of it.

  Programs:       `View.render?` in design mode, `Export.fragment`.
  Specification:  `render?_design` — nothing is hidden in design mode; the nodes that are not drawn
                  are those that stand under one of unrecognised kind, while the export has them all.
  Crux:           what stands under a node of unrecognised kind is not drawn, so the drawing has
                  every node just when those have no children.
-/
import PageBuilder.Proofs.Export.Block
import PageBuilder.Proofs.View.Drawn

namespace PageBuilder

open Node

/-- Whether all that a node is under is of recognised kind. -/
def Node.Lineage.recognised (l : Lineage) : Bool := l.above.all fun a => a.kind?.isSome

/-- Every node is under nodes of recognised kind only just when the others have no children. -/
theorem Node.forall_recognised_iff {n : Node} :
    (∀ l ∈ n.lineages, l.recognised = true) ↔ ∀ m ∈ n.nodes, m.kind? = none → m.childList = [] := by
  constructor
  · intro hall m hm hkind
    rw [← map_node_lineages] at hm
    obtain ⟨l, hl, rfl⟩ := List.mem_map.1 hm
    refine List.eq_nil_iff_forall_not_mem.2 fun c hc => ?_
    have hchild := hall _ (mem_lineages_child hl hc)
    rw [Lineage.recognised, List.all_cons, hkind] at hchild
    exact Bool.false_ne_true hchild
  · intro hchildless l hl
    refine List.all_eq_true.2 fun a ha => ?_
    rcases above_cases hl ha with hroot | ⟨hnode, hchildren⟩
    · exact absurd hroot List.not_mem_nil
    · exact Option.isSome_iff_ne_none.2 fun hkind => hchildren (hchildless a hnode hkind)

namespace View

variable {vs : Variables} {selection : Option String} {n : Node}

theorem opens_design (a : Node) : (Pass.mk .design vs selection).opens a = a.kind?.isSome := by
  rw [Pass.opens, Pass.hides_design rfl, Bool.not_false, Bool.and_true]

theorem draws_design (l : Lineage) : (Pass.mk .design vs selection).draws l = l.recognised := by
  rw [Pass.draws, Pass.hides_design rfl, Bool.not_false, Bool.or_true, Bool.true_and,
    funext opens_design]
  rfl

/-- The ids that are drawn are those of all nodes just when every node is under recognised ones. -/
theorem filter_recognised_eq_iff :
    (n.lineages.filter (·.recognised)).map (·.node.id) = n.ids ↔
      ∀ l ∈ n.lineages, l.recognised = true := by
  rw [← map_id_lineages, ← List.filter_eq_self]
  constructor
  · intro h
    -- a sublist of the same length is the list
    refine List.filter_sublist.eq_of_length ?_
    simpa only [List.length_map] using congrArg List.length h
  · exact congrArg _

/-- **A page in the editor.**

Its drawing never fails, and what is drawn are the nodes that are under recognised ones only, in the
order of the walk.  That is every node just when none of unrecognised kind has children.  The export
of a shaped tree has a block for every node, whatever is above it, and the blocks begin in the order
of the walk. -/
theorem render?_design (vs : Variables) (selection : Option String) (n : Node) :
    let v := render? ⟨.design, vs, selection⟩ n
    v.isSome = true ∧
    (drawn v).map (·.id) = (n.lineages.filter (·.recognised)).map (·.node.id) ∧
    ((drawn v).map (·.id) = n.ids ↔ ∀ m ∈ n.nodes, m.kind? = none → m.childList = []) ∧
    (n.Shaped → ∀ d level,
      (∀ l ∈ n.lineages, Export.blockOf d level l <:+: Export.fragment d level n) ∧
      (n.lineages.map fun l => (Export.blockOf d level l).head?).Sublist
        ((Export.fragment d level n).map some)) := by
  -- the faces are those of the nodes that are drawn
  have hids : (drawn (render? ⟨.design, vs, selection⟩ n)).map (·.id)
      = (n.lineages.filter (·.recognised)).map (·.node.id) := by
    rw [ids_drawn, funext draws_design]
  refine ⟨?_, hids, ?_, ?_⟩
  · rw [Option.isSome_iff_ne_none, ne_eq, render?_eq_none_iff, draws_design]
    exact Bool.noConfusion
  · rw [hids, filter_recognised_eq_iff, forall_recognised_iff]
  · exact fun h d level =>
      ⟨Export.fragment_infix h d level, Export.firstLines_sublist h d level⟩

/-- A node of a type that names no kind, with a text in it. -/
def hologramBox : Node :=
  ⟨"x", .unknown "Hologram" [], some [.make "y" (.blank (some .text))], {}⟩

/-- The text in the box is not drawn, and has a block of its own in the export. -/
theorem render?_design_hologramBox :
    hologramBox.Shaped ∧
    (drawn (render? ⟨.design, [], none⟩ hologramBox)).map (·.id) = ["x"] ∧
    (∀ l ∈ hologramBox.lineages,
      Export.blockOf .react 0 l <:+: Export.fragment .react 0 hologramBox) := by
  have hshaped : hologramBox.Shaped := by decide +kernel
  obtain ⟨-, hids, -, hexport⟩ := render?_design [] none hologramBox
  refine ⟨hshaped, ?_, (hexport hshaped .react 0).1⟩
  rw [hids]
  decide +kernel

/-- **A node can be lost in the editor**: the text of `hologramBox` is. -/
theorem not_render?_design_hologramBox :
    ¬ ((render? ⟨.design, [], none⟩ hologramBox).isSome = true ∧
      (drawn (render? ⟨.design, [], none⟩ hologramBox)).map (·.id) = hologramBox.ids) := by
  decide +kernel

end View
end PageBuilder
