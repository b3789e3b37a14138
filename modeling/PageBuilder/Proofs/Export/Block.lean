/-
  The blocks of an exported tree.

  Program:        `Export.fragment`.
  Specification:  `fragment_infix` — every node, whatever its kind, has a block of lines of its own,
                  as far in as it is deep; `firstLines_sublist` — the blocks begin in the order of
                  the walk, each at a line of its own.
  Crux:           `exists_fragment_eq` — a box of any kind, recognised or not, writes the blocks of
                  its children in full behind its first line.
-/
import Mathlib.Data.List.Flatten
import PageBuilder.Export.Fragment
import PageBuilder.Proofs.Node.Lineage
import PageBuilder.Proofs.Node.Shape

namespace PageBuilder.Export

open Markup Node

variable {d : Dialect} {level : Nat} {n : Node}

/-! ## Blocks -/

/-- A kind that is no box writes something. -/
theorem componentLines_ne_nil (d : Dialect) (id : String) {k : Kind} (h : k.isContainer = false)
    (s : Settings k) : componentLines d id k s ≠ [] := by
  cases k with
  | container => nomatch h
  | card => nomatch h
  | avatar =>
    obtain ⟨⟨src, alt, initials, ⟨⟩⟩, cls, others⟩ := s
    rw [componentLines]
    split <;> exact List.cons_ne_nil _ _
  | codeBlock => cases d <;> exact List.cons_ne_nil _ _
  | _ => exact List.cons_ne_nil _ _

/-- The lines under a node stand in its block, one level further in, behind its first line; a kind
that is no container must have none. -/
theorem exists_block_eq (d : Dialect) (id : String) {p : Props} {inner : List Line}
    (h : ∀ k, p.kind? = some k → k.isContainer = false → inner = []) :
    ∃ first front back,
      block d id p inner = first :: (front ++ (inner.map (Line.deeper 1) ++ back)) := by
  cases p with
  | known k s =>
    rw [block]
    -- a kind that is no box has nothing inside
    cases hk : k.isContainer with
    | false =>
      obtain ⟨first, front, heq⟩ := List.exists_cons_of_ne_nil (componentLines_ne_nil d id hk s)
      obtain rfl := h k rfl hk
      exact ⟨first, front, [], by simpa using heq⟩
    | true =>
      cases inner with
      | nil => exact ⟨_, [], [], rfl⟩
      | cons l ls => exact ⟨_, [], _, rfl⟩
  | unknown t fs =>
    cases inner with
    | nil => exact ⟨_, [], [], rfl⟩
    -- a placeholder has a label in front of what is inside
    | cons l ls => exact ⟨_, [_], _, rfl⟩

theorem allLines_eq (d : Dialect) (ns : List Node) : allLines d ns = ns.flatMap (lines d) := by
  induction ns with
  | nil => rfl
  | cons n ns ih => rw [allLines, ih, List.flatMap_cons]

/-- The lines of a tree: the block of its root around those of its children. -/
theorem lines_eq (d : Dialect) (n : Node) :
    lines d n = block d n.id n.props (n.childList.flatMap (lines d)) := by
  obtain ⟨id, props, cs, b⟩ := n
  cases cs with
  | none => rfl
  | some cs => rw [lines, allLines_eq]; rfl

/-- Lines are moved in twice, or once by the sum. -/
theorem map_deeper_deeper (j k : Nat) (ls : List Line) :
    (ls.map (Line.deeper j)).map (Line.deeper k) = ls.map (Line.deeper (k + j)) := by
  rw [List.map_map]
  refine List.map_congr_left fun l _ => ?_
  rw [Function.comp_apply, Line.deeper, Line.deeper, Line.deeper, Nat.add_assoc, Nat.add_comm j k]

/-- **The lines of a shaped node**: a first one, and somewhere behind it the blocks of the children,
each in full. -/
theorem exists_fragment_eq (h : n.shell.Fits) (d : Dialect) (level : Nat) :
    ∃ first front back,
      fragment d level n
        = first :: (front ++ (n.childList.flatMap (fragment d (level + 1)) ++ back)) := by
  have hleaf : ∀ k, n.props.kind? = some k → k.isContainer = false →
      n.childList.flatMap (lines d) = [] := fun k hk hcontainer => by
    rw [childList_eq_nil h hk hcontainer, List.flatMap_nil]
  obtain ⟨first, front, back, heq⟩ := exists_block_eq d n.id hleaf
  refine ⟨first.deeper level, front.map (Line.deeper level), back.map (Line.deeper level), ?_⟩
  have hbelow : (n.childList.flatMap (lines d)).map (Line.deeper (level + 1))
      = n.childList.flatMap (fragment d (level + 1)) := List.map_flatMap
  rw [fragment, lines_eq, heq, List.map_cons, List.map_append, List.map_append, map_deeper_deeper,
    hbelow]

/-! ## All blocks of a tree -/

/-- The block of a node in the export of the tree that it stands in: as far in as it is deep. -/
def blockOf (d : Dialect) (level : Nat) (l : Lineage) : List Line :=
  fragment d (level + l.above.length) l.node

/-- **Every node has a block** of lines in the export of its tree. -/
theorem fragment_infix_under {above : List Node} (h : n.Shaped) (d : Dialect) (level : Nat) :
    ∀ l ∈ lineagesUnder above n, blockOf d level l <:+: fragment d (level + above.length) n := by
  induction n using Node.induct generalizing above with
  | step n ih =>
    obtain ⟨hfits, hbelow⟩ := shaped_iff.1 h
    obtain ⟨first, front, back, heq⟩ := exists_fragment_eq hfits d (level + above.length)
    intro l hl
    rw [lineagesUnder_eq] at hl
    -- the root has the whole fragment, any other node is in that of a child
    rcases List.mem_cons.1 hl with rfl | hl
    · exact List.infix_rfl
    · obtain ⟨c, hc, hl⟩ := List.mem_flatMap.1 hl
      have hchild : blockOf d level l <:+: fragment d (level + above.length + 1) c :=
        ih c hc (hbelow c hc) l hl
      have hinner : blockOf d level l
          <:+: n.childList.flatMap (fragment d (level + above.length + 1)) :=
        hchild.trans (List.infix_of_mem_flatten (List.mem_map_of_mem hc))
      rw [heq]
      exact List.infix_cons ((hinner.trans (List.prefix_append _ back).isInfix).trans
        (List.suffix_append front _).isInfix)

/-- **The blocks begin in the order of the walk**, each at a line of its own. -/
theorem firstLines_sublist_under {above : List Node} (h : n.Shaped) (d : Dialect) (level : Nat) :
    ((lineagesUnder above n).map fun l => (blockOf d level l).head?).Sublist
      ((fragment d (level + above.length) n).map some) := by
  induction n using Node.induct generalizing above with
  | step n ih =>
    obtain ⟨hfits, hbelow⟩ := shaped_iff.1 h
    obtain ⟨first, front, back, heq⟩ := exists_fragment_eq hfits d (level + above.length)
    have hfirst : (blockOf d level ⟨n, above⟩).head? = some first := by
      rw [blockOf, heq]
      rfl
    -- the children have their lines one behind the other
    have hchildren :
        ((n.childList.flatMap (lineagesUnder (n :: above))).map
          fun l => (blockOf d level l).head?).Sublist
        ((n.childList.flatMap (fragment d (level + above.length + 1))).map some) := by
      rw [List.map_flatMap, List.map_flatMap]
      exact List.Sublist.flatMap_right _ fun c hc => ih c hc (hbelow c hc)
    rw [lineagesUnder_eq, heq, List.map_cons, List.map_cons, hfirst, List.map_append,
      List.map_append]
    exact List.Sublist.cons_cons _
      ((hchildren.trans (List.sublist_append_left _ _)).trans (List.sublist_append_right _ _))

/-- **Every node has its block** in the fragment of the tree. -/
theorem fragment_infix (h : n.Shaped) (d : Dialect) (level : Nat) :
    ∀ l ∈ n.lineages, blockOf d level l <:+: fragment d level n :=
  fragment_infix_under h d level

/-- **The blocks begin in the order of the walk.** -/
theorem firstLines_sublist (h : n.Shaped) (d : Dialect) (level : Nat) :
    (n.lineages.map fun l => (blockOf d level l).head?).Sublist ((fragment d level n).map some) :=
  firstLines_sublist_under h d level

end PageBuilder.Export
