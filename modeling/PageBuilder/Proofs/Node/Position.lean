/-
  Positions: which child to go to, from the root on.

  A place says all that is around a node; a position says only where the node is, so one position can
  be looked at in a tree before an edit and after it.

  Programs:       `at?` — the node at a position; `firstSpot?` — the first node of an id, with its
                  position; `changedAt` — the tree with the node at a position changed.
  Specification:  `find?_eq` — the first node of an id is the one that is found; `at?_changedAt`,
                  `at?_changedAt_aside` — what a change at a position shows on the way there, and
                  everywhere else.
  Crux:           `firstSpot?_plug` — a place before which an id does not occur IS the position of the
                  first node of that id, so what is known of places is known of positions.
-/
import PageBuilder.Proofs.Node.Place

namespace PageBuilder.Node

/-- **The node at a position**: which child to go to, from the root on. -/
def at? : List Nat → Node → Option Node
  | [], n => some n
  | i :: p, n => n.childList[i]?.bind (at? p)

/-! ## The first node of an id -/

/-- A node of a tree, and its position. -/
structure Spot where
  position : List Nat
  node : Node

/-- A spot of a child, as a spot of the tree above it. -/
def Spot.under (i : Nat) (s : Spot) : Spot := ⟨i :: s.position, s.node⟩

mutual
/-- **The nodes of a tree, with their positions**, in the order of the walk. -/
def spots : Node → List Spot
  | ⟨i, p, none, b⟩ => [⟨[], ⟨i, p, none, b⟩⟩]
  | ⟨i, p, some cs, b⟩ => ⟨[], ⟨i, p, some cs, b⟩⟩ :: spotsFrom 0 cs

/-- The spots of some children, of which the first one is the child of a given index. -/
def spotsFrom (i : Nat) : List Node → List Spot
  | [] => []
  | n :: ns => n.spots.map (Spot.under i) ++ spotsFrom (i + 1) ns
end

/-- **The first node of an id**, and its position. -/
def firstSpot? (id : String) (n : Node) : Option Spot := n.spots.find? fun s => s.node.id == id

theorem spots_cons (n : Node) : n.spots = ⟨[], n⟩ :: spotsFrom 0 n.childList := by
  obtain ⟨i, p, cs, b⟩ := n
  cases cs <;> rfl

/-- The children of an appended list are counted on. -/
theorem spotsFrom_append (i : Nat) (ms ns : List Node) :
    spotsFrom i (ms ++ ns) = spotsFrom i ms ++ spotsFrom (i + ms.length) ns := by
  induction ms generalizing i with
  | nil => rfl
  | cons m ms ih =>
    have hindex : i + 1 + ms.length = i + (ms.length + 1) := by omega
    rw [List.cons_append, spotsFrom, spotsFrom, ih, List.append_assoc, List.length_cons, hindex]

/-- The spots of some children are the spots of their walks. -/
theorem map_node_spotsFrom (i : Nat) {ns : List Node}
    (h : ∀ n ∈ ns, n.spots.map (·.node) = n.nodes) :
    (spotsFrom i ns).map (·.node) = ns.flatMap nodes := by
  induction ns generalizing i with
  | nil => rfl
  | cons n ns ih =>
    have hn : (n.spots.map (Spot.under i)).map (·.node) = n.nodes := by
      rw [List.map_map]
      exact h n List.mem_cons_self
    rw [spotsFrom, List.map_append, hn, ih _ fun m hm => h m (List.mem_cons_of_mem _ hm),
      List.flatMap_cons]

/-- **The nodes of the spots** are those of the walk, in its order. -/
theorem map_node_spots : ∀ n : Node, n.spots.map (·.node) = n.nodes := by
  refine induct fun n ih => ?_
  rw [spots_cons, List.map_cons, map_node_spotsFrom 0 ih, nodes_cons]

/-- A spot of some children is a spot of one of them, one step further down. -/
theorem mem_spotsFrom {s : Spot} {ns : List Node} {i : Nat} (h : s ∈ spotsFrom i ns) :
    ∃ (j : Nat) (n : Node) (t : Spot), ns[j]? = some n ∧ t ∈ n.spots ∧ s = t.under (i + j) := by
  induction ns generalizing i with
  | nil => nomatch h
  | cons n ns ih =>
    rw [spotsFrom] at h
    rcases List.mem_append.1 h with h | h
    · obtain ⟨t, ht, rfl⟩ := List.mem_map.1 h
      exact ⟨0, n, t, rfl, ht, rfl⟩
    · obtain ⟨j, m, t, hm, ht, rfl⟩ := ih h
      exact ⟨j + 1, m, t, hm, ht, by rw [Nat.add_assoc, Nat.add_comm 1 j]⟩

/-- The node of a spot is the one at its position. -/
theorem at?_of_mem_spots : ∀ (n : Node) (s : Spot), s ∈ n.spots → n.at? s.position = some s.node := by
  refine induct fun n ih s hs => ?_
  rw [spots_cons] at hs
  rcases List.mem_cons.1 hs with rfl | hs
  · rfl
  · obtain ⟨j, c, t, hc, ht, rfl⟩ := mem_spotsFrom hs
    have hbelow := ih c (List.mem_of_getElem? hc) t ht
    rw [Spot.under, Nat.zero_add, at?, hc, Option.bind_some]
    exact hbelow

/-- **What is found** is the first node of the id. -/
theorem find?_eq (id : String) (n : Node) : n.find? id = (n.firstSpot? id).map (·.node) := by
  rw [find?, ← map_node_spots, List.find?_map]
  rfl

/-- A position is followed in two parts. -/
theorem at?_append (p q : List Nat) (n : Node) : n.at? (p ++ q) = (n.at? p).bind (at? q) := by
  induction p generalizing n with
  | nil => rfl
  | cons i p ih =>
    rw [List.cons_append, at?, at?, Option.bind_assoc]
    exact congrArg (n.childList[i]?.bind ·) (funext ih)

theorem exists_child_of_at? {i : Nat} {p : List Nat} {n m : Node} (h : n.at? (i :: p) = some m) :
    ∃ c, n.childList[i]? = some c ∧ c.at? p = some m := Option.bind_eq_some_iff.1 h

theorem at?_of_firstSpot? {id : String} {n : Node} {s : Spot} (h : n.firstSpot? id = some s) :
    n.at? s.position = some s.node :=
  at?_of_mem_spots n s (List.mem_of_find?_eq_some h)

/-- The position of a place. -/
def Place.position (p : Place) : List Nat := p.map (·.left.length)

/-- **The first node of an id is at the place** before which the id does not occur. -/
theorem firstSpot?_plug {id : String} {n : Node} (hn : n.id = id) :
    ∀ p : Place, id ∉ p.idsBefore → (p.plug n).firstSpot? id = some ⟨p.position, n⟩
  | [], _ => by
    rw [Place.plug, firstSpot?, spots_cons]
    exact List.find?_cons_of_pos (beq_iff_eq.2 hn)
  | l :: p, h => by
    rw [Place.mem_idsBefore_cons, not_or, not_or] at h
    obtain ⟨hroot, hleft, hbefore⟩ := h
    -- the spots in front of the way have other ids
    have hskip : (spotsFrom 0 l.left).find? (fun s => s.node.id == id) = none := by
      refine List.find?_eq_none.2 fun s hs he => hleft ?_
      have hnode := List.mem_map_of_mem (f := Spot.node) hs
      rw [map_node_spotsFrom 0 fun c _ => map_node_spots c] at hnode
      obtain ⟨c, hc, hm⟩ := List.mem_flatMap.1 hnode
      exact List.mem_flatMap.2 ⟨c, hc, List.mem_map.2 ⟨s.node, hm, eq_of_beq he⟩⟩
    have hbelow : (Place.plug p n).spots.find? (fun s => s.node.id == id)
        = some ⟨Place.position p, n⟩ := firstSpot?_plug hn p hbefore
    have hway : ((Place.plug p n).spots.map (Spot.under l.left.length)).find?
        (fun s => s.node.id == id) = some ⟨Place.position (l :: p), n⟩ := by
      rw [List.find?_map]
      exact congrArg (Option.map (Spot.under l.left.length)) hbelow
    rw [Place.plug, firstSpot?, spots_cons,
      List.find?_cons_of_neg (by simpa [Level.over] using Ne.symm hroot)]
    show (spotsFrom 0 (l.left ++ ([Place.plug p n] ++ l.right))).find? _ = _
    rw [spotsFrom_append, List.find?_append, hskip, Option.none_or, Nat.zero_add,
      List.singleton_append, spotsFrom, List.find?_append, hway, Option.some_or]

/-- The place of the first node of an id. -/
theorem exists_place_of_firstSpot? {id : String} {tree : Node} {s : Spot}
    (h : tree.firstSpot? id = some s) : ∃ p : Place, tree = p.plug s.node ∧ s.node.id = id ∧
      id ∉ p.idsBefore ∧ s.position = p.position := by
  have hfind : tree.find? id = some s.node := by
    rw [find?_eq, h]
    rfl
  obtain ⟨hmem, hid⟩ := mem_of_find? hfind
  obtain ⟨p, n, rfl, hn, hbefore⟩ := exists_place tree (List.mem_map.2 ⟨s.node, hmem, hid⟩)
  rw [firstSpot?_plug hn p hbefore] at h
  obtain rfl := Option.some.inj h
  exact ⟨p, rfl, hn, hbefore, rfl⟩

/-! ## Changes at a position -/

/-- **The tree with the node at a position changed**; nothing changes without that position. -/
def changedAt (f : Node → Node) : List Nat → Node → Node
  | [], n => f n
  | i :: p, n => { n with children := n.children.map (·.modify i (changedAt f p)) }

variable {f : Node → Node} {n : Node} {i : Nat} {p q : List Nat}

/-- A change below a child changes that child alone. -/
theorem childList_changedAt (f : Node → Node) (i : Nat) (p : List Nat) (n : Node) :
    (n.changedAt f (i :: p)).childList = n.childList.modify i (changedAt f p) := by
  obtain ⟨id, props, cs, b⟩ := n
  cases cs with
  | none => cases i <;> rfl
  | some cs => rfl

/-- Above the position a node keeps all but its children. -/
theorem shell_changedAt (f : Node → Node) (i : Nat) (p : List Nat) (n : Node) :
    (n.changedAt f (i :: p)).shell = n.shell := by
  obtain ⟨id, props, cs, b⟩ := n
  cases cs <;> rfl

/-- **On the way** to the position: the node there is changed below. -/
theorem at?_changedAt (f : Node → Node) (q p : List Nat) (n : Node) :
    (n.changedAt f (q ++ p)).at? q = (n.at? q).map (changedAt f p) := by
  induction q generalizing n with
  | nil => rfl
  | cons i q ih =>
    rw [List.cons_append, at?, at?, childList_changedAt, List.getElem?_modify_eq]
    cases n.childList[i]? with
    | none => rfl
    | some c => exact ih c

/-- **Off the way**, neither above the position nor below it, nothing changes. -/
theorem at?_changedAt_aside (h : ¬ q <+: p) (h' : ¬ p <+: q) :
    (n.changedAt f p).at? q = n.at? q := by
  induction p generalizing q n with
  | nil => exact absurd List.nil_prefix h'
  | cons i p ih =>
    cases q with
    | nil => exact absurd List.nil_prefix h
    | cons j q =>
      rw [at?, at?, childList_changedAt]
      -- the two ways go on through one child, or part here
      by_cases hij : i = j
      · subst hij
        rw [List.cons_prefix_cons, not_and] at h h'
        rw [List.getElem?_modify_eq]
        cases n.childList[i]? with
        | none => rfl
        | some c => exact ih (h rfl) (h' rfl)
      · rw [List.getElem?_modify_ne _ _ hij]

theorem modify_length_append {α : Type} (g : α → α) (xs : List α) (y : α) (ys : List α) :
    (xs ++ y :: ys).modify xs.length g = xs ++ g y :: ys := by
  induction xs with
  | nil => rfl
  | cons x xs ih => exact congrArg (x :: ·) ih

/-- A change below a level. -/
theorem changedAt_over (f : Node → Node) (p : List Nat) (l : Level) (n : Node) :
    (l.over [n]).changedAt f (l.left.length :: p) = l.over [n.changedAt f p] :=
  congrArg (fun cs => (⟨l.id, l.props, some cs, l.behavior⟩ : Node))
    (modify_length_append (changedAt f p) l.left n l.right)

/-- **A change at a place** is a change at its position. -/
theorem changedAt_position (f : Node → Node) (p : Place) (n : Node) :
    (p.plug n).changedAt f p.position = p.plug (f n) := by
  induction p with
  | nil => rfl
  | cons l p ih => exact (changedAt_over f _ l _).trans (congrArg (fun m => l.over [m]) ih)

/-! ## A child taken out -/

/-- The node without a child. -/
def withoutChild (i : Nat) (n : Node) : Node :=
  { n with children := n.children.map (·.eraseIdx i) }

theorem childList_withoutChild (i : Nat) (n : Node) :
    (n.withoutChild i).childList = n.childList.eraseIdx i := by
  obtain ⟨id, props, cs, b⟩ := n
  cases cs <;> rfl

theorem shell_withoutChild (i : Nat) (n : Node) : (n.withoutChild i).shell = n.shell := by
  obtain ⟨id, props, cs, b⟩ := n
  cases cs <;> rfl

/-- When a child is taken out, those behind it move up by one. -/
theorem getElem?_eraseIdx_of_ne {α : Type} (xs : List α) {i j : Nat} (h : j ≠ i) :
    (xs.eraseIdx i)[if i < j then j - 1 else j]? = xs[j]? := by
  by_cases hij : i < j
  · have hback : j - 1 + 1 = j := by omega
    rw [if_pos hij, List.getElem?_eraseIdx_of_ge (by omega), hback]
  · rw [if_neg hij, List.getElem?_eraseIdx_of_lt (by omega)]

/-- A level, emptied. -/
theorem withoutChild_over (l : Level) (n : Node) :
    (l.over [n]).withoutChild l.left.length = l.over [] := by
  have hlist : (l.left ++ ([n] ++ l.right)).eraseIdx l.left.length = l.left ++ ([] ++ l.right) := by
    rw [List.eraseIdx_append_of_length_le (Nat.le_refl _), Nat.sub_self]
    rfl
  exact congrArg (fun cs => (⟨l.id, l.props, some cs, l.behavior⟩ : Node)) hlist

/-- **A place below the root, emptied**: a child is taken out of the node above it. -/
theorem exists_fill_nil_eq (l : Level) (p : Place) (n : Node) : ∃ q i,
    Place.position (l :: p) = q ++ [i] ∧
      Place.fill l p [] = (Place.fill l p [n]).changedAt (withoutChild i) q := by
  induction p generalizing l with
  | nil => exact ⟨[], l.left.length, rfl, (withoutChild_over l n).symm⟩
  | cons m p ih =>
    obtain ⟨q, i, hposition, hfill⟩ := ih m
    refine ⟨l.left.length :: q, i, congrArg (l.left.length :: ·) hposition, ?_⟩
    rw [Place.fill, Place.fill, changedAt_over, hfill]

end PageBuilder.Node
