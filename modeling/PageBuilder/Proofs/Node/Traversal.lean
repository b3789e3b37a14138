/-
  The walk, one node at a time.

  Programs:       `Cursor.next?` — takes the last of the pending subtrees, and leaves its children
                  pending in its place; `Cursor.run` — some calls of it, one after the other.
  Specification:  `traversal` — as many calls give a node as there are nodes, each position of the
                  tree comes once, in lexicographic order, and what counts and looks up nodes goes
                  down the tree child by child.
  Crux:           `Cursor.run_eq` — the invariant is about ALL that is pending: the nodes to come are
                  the preorders of the pending subtrees, the last one first, and a call takes the
                  first node off that list, however deep the tree is.
-/
import Mathlib.Algebra.GroupWithZero.Nat
import PageBuilder.Proofs.Node.Position

namespace PageBuilder.Node

/-! ## The cursor -/

/-- **The walk under way**: the subtrees that are pending, the next one last. -/
structure Cursor where
  pending : Array Node

namespace Cursor

/-- Before the first call only the root is pending. -/
def start (n : Node) : Cursor := ⟨#[n]⟩

/-- **The next node**; its children are pending in its place, the first one last. -/
def next? (c : Cursor) : Option (Node × Cursor) :=
  c.pending.back?.map fun n => (n, ⟨c.pending.pop ++ n.childList.reverse.toArray⟩)

/-- What some calls give, and the cursor behind them; a call with nothing pending gives nothing. -/
def run : Nat → Cursor → List Node × Cursor
  | 0, c => ([], c)
  | k + 1, c =>
    match c.next? with
    | none => ([], c)
    | some (n, c) => (n :: (run k c).1, (run k c).2)

/-- **The nodes to come**: the preorders of what is pending, the last one first. -/
def upcoming (c : Cursor) : List Node := walk c.pending.toList.reverse

theorem upcoming_start (n : Node) : (start n).upcoming = n.nodes := rfl

/-- **One call**: it gives the first of the nodes to come, and the others are still to come. -/
theorem next?_spec (c : Cursor) : (c.next? = none ∧ c.upcoming = []) ∨
    ∃ n d, c.next? = some (n, d) ∧ c.upcoming = n :: d.upcoming := by
  obtain ⟨⟨pending⟩⟩ := c
  -- the stack is empty, or has a subtree on top
  rcases List.eq_nil_or_concat pending with rfl | ⟨below, n, hpending⟩
  · refine .inl ⟨rfl, ?_⟩
    show walk [] = []
    rw [walk]
  · rw [List.concat_eq_append] at hpending
    subst hpending
    refine .inr ⟨n, ⟨(below ++ n.childList.reverse).toArray⟩, ?_, ?_⟩
    · rw [next?, List.back?_toArray, List.getLast?_concat, Option.map_some, List.pop_toArray,
        List.dropLast_concat, List.append_toArray]
    · show walk (below ++ [n]).reverse = n :: walk (below ++ n.childList.reverse).reverse
      -- the children are pushed the last one first, so they come off in order
      rw [List.reverse_append, List.reverse_singleton, List.singleton_append, walk,
        List.reverse_append, List.reverse_reverse]

/-- **A run** gives the first of the nodes to come, and stands before the others. -/
theorem run_eq (k : Nat) (c : Cursor) :
    (c.run k).1 = c.upcoming.take k ∧ (c.run k).2.upcoming = c.upcoming.drop k := by
  induction k generalizing c with
  | zero => exact ⟨rfl, rfl⟩
  | succ k ih =>
    rw [run]
    rcases c.next?_spec with ⟨hnext, hnone⟩ | ⟨n, d, hnext, hsome⟩
    · rw [hnext, hnone, List.take_nil, List.drop_nil]
      exact ⟨rfl, rfl⟩
    · obtain ⟨hgiven, hleft⟩ := ih d
      rw [hnext, hsome]
      exact ⟨congrArg (n :: ·) hgiven, hleft⟩

/-- The calls are over when no nodes are to come. -/
theorem next?_eq_none_iff {c : Cursor} : c.next? = none ↔ c.upcoming = [] := by
  rcases c.next?_spec with ⟨hnext, hnone⟩ | ⟨n, d, hnext, hsome⟩
  · simp only [hnext, hnone]
  · simp only [hnext, hsome, reduceCtorEq]

end Cursor

/-! ## Positions in the order of the walk -/

/-- A spot of a child is a spot of the list it is in. -/
theorem mem_spotsFrom_of {s : Spot} {n : Node} {ns : List Node} {i j : Nat} (hn : ns[j]? = some n)
    (hs : s ∈ n.spots) : s.under (i + j) ∈ spotsFrom i ns := by
  induction ns generalizing i j with
  | nil => nomatch hn
  | cons m ns ih =>
    rw [spotsFrom, List.mem_append]
    -- in the first of them, or in a later one, which is counted from one more
    cases j with
    | zero =>
      obtain rfl := Option.some.inj hn
      exact .inl (List.mem_map_of_mem hs)
    | succ j =>
      have hindex : i + (j + 1) = i + 1 + j := by omega
      rw [hindex]
      exact .inr (ih hn)

/-- A node at a position is a spot of the tree. -/
theorem mem_spots_of_at? : ∀ (n : Node) (p : List Nat) (m : Node), n.at? p = some m →
    ⟨p, m⟩ ∈ n.spots := by
  refine induct fun n ih p m h => ?_
  rw [spots_cons]
  cases p with
  | nil =>
    obtain rfl := Option.some.inj h
    exact List.mem_cons_self
  | cons i p =>
    obtain ⟨c, hc, hm⟩ := exists_child_of_at? h
    have hspot := mem_spotsFrom_of (i := 0) hc (ih c (List.mem_of_getElem? hc) p m hm)
    rw [Nat.zero_add] at hspot
    exact List.mem_cons_of_mem _ hspot

/-- **The spots of a tree** are its nodes, each at its position. -/
theorem mem_spots_iff {n : Node} {s : Spot} : s ∈ n.spots ↔ n.at? s.position = some s.node :=
  ⟨at?_of_mem_spots n s, mem_spots_of_at? n s.position s.node⟩

/-- The nodes of a tree are what stands at its positions. -/
theorem mem_nodes_iff {n m : Node} : m ∈ n.nodes ↔ ∃ p, n.at? p = some m := by
  rw [← map_node_spots, List.mem_map]
  constructor
  · rintro ⟨s, hs, rfl⟩
    exact ⟨s.position, mem_spots_iff.1 hs⟩
  · rintro ⟨p, h⟩
    exact ⟨⟨p, m⟩, mem_spots_iff.2 h, rfl⟩

/-- Positions under a child come before those under the next one. -/
theorem pairwise_spotsFrom {ns : List Node} (i : Nat)
    (h : ∀ n ∈ ns, n.spots.Pairwise (·.position < ·.position)) :
    (spotsFrom i ns).Pairwise (·.position < ·.position) := by
  induction ns generalizing i with
  | nil => exact .nil
  | cons n ns ih =>
    obtain ⟨hn, hns⟩ := List.forall_mem_cons.1 h
    rw [spotsFrom, List.pairwise_append]
    refine ⟨?_, ih (i + 1) hns, fun s hs t ht => ?_⟩
    · exact List.pairwise_map.2 (hn.imp fun hlt => List.cons_lt_cons_iff.2 (.inr ⟨rfl, hlt⟩))
    · -- a child comes, with all that is under it, before those behind it
      obtain ⟨s', -, rfl⟩ := List.mem_map.1 hs
      obtain ⟨j, -, t', -, -, rfl⟩ := mem_spotsFrom ht
      have hlt : i < i + 1 + j := by omega
      exact List.cons_lt_cons_iff.2 (.inl hlt)

/-- **The walk goes through the positions in order**, a position before those under it. -/
theorem pairwise_spots : ∀ n : Node, n.spots.Pairwise (·.position < ·.position) := by
  refine induct fun n ih => ?_
  rw [spots_cons, List.pairwise_cons]
  refine ⟨fun s hs => ?_, pairwise_spotsFrom 0 ih⟩
  obtain ⟨j, -, t, -, -, rfl⟩ := mem_spotsFrom hs
  exact List.nil_lt_cons _ _

/-! ## The walk -/

theorem count_eq (n : Node) : n.count = 1 + (n.childList.map count).sum := by
  rw [count, nodes_cons, List.length_cons, List.length_flatMap, Nat.add_comm]
  rfl

/-- The root is asked first, and then the children in order. -/
theorem find?_eq_of_children (id : String) (n : Node) : n.find? id
    = if n.id = id then some n else n.childList.findSome? (·.find? id) := by
  unfold find?
  rw [nodes_cons, List.find?_cons, List.find?_flatMap]
  by_cases h : n.id = id
  · simp only [h, beq_self_eq_true, if_true]
  · simp only [h, beq_eq_false_iff_ne.2 h, if_false]

/-- **The walk of a tree**, as a cursor goes through it and as the tree is built. -/
structure Traversal (n : Node) : Prop where
  /-- Every call gives the next node of the walk. -/
  given : ∀ k, ((Cursor.start n).run k).1 = n.nodes.take k
  /-- The calls are over after as many as there are nodes, and not before. -/
  ended : ∀ k, ((Cursor.start n).run k).2.next? = none ↔ n.count ≤ k
  recursive : n.nodes = n.preorder
  /-- A node comes before what is under it, and that comes child by child. -/
  children : n.nodes = n :: n.childList.flatMap nodes
  /-- The nodes are those at the positions of the tree, each position once, in order. -/
  positions : ∃ ps : List (List Nat), ps.Pairwise (· < ·) ∧ ps.Nodup ∧
    (∀ p, p ∈ ps ↔ (n.at? p).isSome) ∧ n.nodes.map some = ps.map (at? · n) ∧
    n.ids.map some = ps.map fun p => (n.at? p).map (·.id)
  count : n.count = 1 + (n.childList.map count).sum
  /-- A node is found at once, or in the first child that it is found in. -/
  find? : ∀ id, n.find? id = if n.id = id then some n else n.childList.findSome? (·.find? id)

/-- **The walk is the recursive preorder**: a cursor ends on every tree, after one call for each node,
and gives a node, then the preorder of each child in turn. -/
theorem traversal (n : Node) : Traversal n where
  given k := by rw [(Cursor.run_eq k _).1, Cursor.upcoming_start]
  ended k := by
    rw [Cursor.next?_eq_none_iff, (Cursor.run_eq k _).2, Cursor.upcoming_start,
      List.drop_eq_nil_iff, count]
  recursive := nodes_eq n
  children := nodes_cons n
  positions := by
    -- the lexicographic order of the positions is the order of the walk
    have hsorted : (n.spots.map (·.position)).Pairwise (· < ·) :=
      List.pairwise_map.2 (pairwise_spots n)
    have hnodes : n.nodes.map some = (n.spots.map (·.position)).map (at? · n) := by
      rw [← map_node_spots, List.map_map, List.map_map]
      exact List.map_congr_left fun s hs => (mem_spots_iff.1 hs).symm
    have hnodup : (n.spots.map (·.position)).Nodup := by
      refine List.Pairwise.imp (fun {p q} hlt heq => ?_) hsorted
      exact List.lt_irrefl q (heq ▸ hlt)
    refine ⟨n.spots.map (·.position), hsorted, hnodup, fun p => ?_, hnodes, ?_⟩
    · rw [List.mem_map, Option.isSome_iff_exists]
      constructor
      · rintro ⟨s, hs, rfl⟩
        exact ⟨s.node, mem_spots_iff.1 hs⟩
      · rintro ⟨m, hm⟩
        exact ⟨⟨p, m⟩, mem_spots_iff.2 hm, rfl⟩
    · have hids := congrArg (List.map (Option.map (·.id))) hnodes
      rw [List.map_map, List.map_map] at hids
      rw [ids, List.map_map]
      exact hids
  count := count_eq n
  find? id := find?_eq_of_children id n

end PageBuilder.Node
