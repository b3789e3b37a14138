/-
  Parents, looked up by the id of a child.

  Programs:       `findParent?` — the first node with a child of an id; `find?` — the first node of an
                  id; `insertChild?`.
  Specification:  `findParent?_matches` — where ids are distinct, the parent of an id is the node whose
                  list has what is found under the id, and only the root and ids that do not occur
                  have none; a node that was put in is the last child of the parent of its id.
  Crux:           the two look-ups pass the nodes in different orders, so neither says where the other
                  one stops; but by `eq_of_id_eq` an id has one position, and what is above a position
                  is one position again.
-/
import Mathlib.Data.List.Nodup
import PageBuilder.Proofs.Node.Operation
import PageBuilder.Proofs.Node.Traversal

namespace PageBuilder.Node

variable {tree t p q m n c : Node} {id : String} {a b : List Nat} {i : Nat}

/-! ## Ids and positions -/

theorem map_id_spots (n : Node) : n.spots.map (·.node.id) = n.ids := by
  rw [ids, ← map_node_spots, List.map_map]
  rfl

/-- **An id has one position**, where ids are distinct. -/
theorem eq_of_id_eq (h : tree.ids.Nodup) (hm : tree.at? a = some m) (hn : tree.at? b = some n)
    (hid : m.id = n.id) : a = b := by
  rw [← map_id_spots] at h
  have hspot : (⟨a, m⟩ : Spot) = ⟨b, n⟩ :=
    List.inj_on_of_nodup_map h (mem_spots_iff.2 hm) (mem_spots_iff.2 hn) hid
  exact congrArg Spot.position hspot

/-- The first node of an id is the one at its position. -/
theorem firstSpot?_of_at? (h : tree.ids.Nodup) (hn : tree.at? a = some n) :
    tree.firstSpot? n.id = some ⟨a, n⟩ := by
  obtain ⟨s, hs⟩ : ∃ s, tree.firstSpot? n.id = some s :=
    Option.isSome_iff_exists.1
      (List.find?_isSome.2 ⟨⟨a, n⟩, mem_spots_iff.2 hn, beq_self_eq_true n.id⟩)
  have hid : s.node.id = n.id := by
    have hfound := List.find?_some hs
    exact eq_of_beq hfound
  have hat := at?_of_firstSpot? hs
  obtain rfl := eq_of_id_eq h hat hn hid
  obtain rfl := Option.some.inj (hat.symm.trans hn)
  exact hs

/-- The last step of a position leads from the parent to the child. -/
theorem at?_concat : tree.at? (a ++ [i]) = some c ↔
    ∃ p, tree.at? a = some p ∧ p.childList[i]? = some c := by
  rw [at?_append, Option.bind_eq_some_iff]
  refine exists_congr fun p => and_congr_right fun _ => ?_
  rw [at?, Option.bind_eq_some_iff]
  constructor
  · rintro ⟨d, hd, hdc⟩
    rw [hd, ← hdc]
    rfl
  · intro hc
    exact ⟨c, hc, rfl⟩

/-! ## Parents -/

/-- **What is found as a parent** is a node of the tree with a child of the id. -/
theorem exists_child_of_findParent? (h : tree.findParent? id = some p) :
    ∃ (a : List Nat) (i : Nat) (c : Node),
      tree.at? a = some p ∧ p.childList[i]? = some c ∧ c.id = id := by
  obtain ⟨a, ha⟩ := mem_nodes_iff.1 (List.mem_of_find?_eq_some h)
  have hchild := List.find?_some h
  obtain ⟨c, hc, hid⟩ := List.any_eq_true.1 hchild
  obtain ⟨i, hi⟩ := List.mem_iff_getElem?.1 hc
  exact ⟨a, i, c, ha, hi, eq_of_beq hid⟩

/-- Where ids are distinct, two parents of one id are one. -/
theorem eq_of_child_id_eq (h : tree.ids.Nodup) {d : Node} {j : Nat} (hp : tree.at? a = some p)
    (hc : p.childList[i]? = some c) (hq : tree.at? b = some q) (hd : q.childList[j]? = some d)
    (hid : c.id = d.id) : a = b ∧ i = j := by
  have hposition : a ++ [i] = b ++ [j] :=
    eq_of_id_eq h (at?_concat.2 ⟨p, hp, hc⟩) (at?_concat.2 ⟨q, hq, hd⟩) hid
  obtain ⟨hab, hij⟩ := List.append_inj' hposition rfl
  exact ⟨hab, List.singleton_inj.1 hij⟩

/-- **The parent of the id of a child** is the node that has the child. -/
theorem findParent?_of_child (h : tree.ids.Nodup) (hp : tree.at? a = some p)
    (hc : p.childList[i]? = some c) : tree.findParent? c.id = some p := by
  obtain ⟨q, hq⟩ : ∃ q, tree.findParent? c.id = some q := by
    refine Option.isSome_iff_exists.1 (List.find?_isSome.2 ⟨p, mem_nodes_iff.2 ⟨a, hp⟩, ?_⟩)
    exact List.any_eq_true.2 ⟨c, List.mem_of_getElem? hc, beq_self_eq_true c.id⟩
  obtain ⟨b, j, d, hb, hd, hid⟩ := exists_child_of_findParent? hq
  obtain ⟨rfl, -⟩ := eq_of_child_id_eq h hp hc hb hd hid.symm
  rw [hq, ← hb, hp]

/-- **No parent** have the root and ids that do not occur. -/
theorem findParent?_eq_none_iff (h : tree.ids.Nodup) :
    tree.findParent? id = none ↔ id = tree.id ∨ id ∉ tree.ids := by
  constructor
  · intro hnone
    by_contra hsome
    obtain ⟨hroot, hmem⟩ := not_or.1 hsome
    obtain ⟨n, hn, rfl⟩ := List.mem_map.1 (not_not.1 hmem)
    obtain ⟨b, hb⟩ := mem_nodes_iff.1 hn
    -- below the root a position ends with the index of a child
    rcases List.eq_nil_or_concat' b with rfl | ⟨a, i, rfl⟩
    · obtain rfl := Option.some.inj hb
      exact hroot rfl
    · obtain ⟨p, hp, hc⟩ := at?_concat.1 hb
      rw [findParent?_of_child h hp hc] at hnone
      cases hnone
  · intro hid
    by_contra hsome
    obtain ⟨p, hp⟩ := Option.ne_none_iff_exists'.1 hsome
    obtain ⟨a, i, c, ha, hc, rfl⟩ := exists_child_of_findParent? hp
    have hat : tree.at? (a ++ [i]) = some c := at?_concat.2 ⟨p, ha, hc⟩
    rcases hid with hroot | habsent
    · have hnil : a ++ [i] = [] := eq_of_id_eq h hat rfl hroot
      exact List.cons_ne_nil i [] (List.append_eq_nil_iff.1 hnil).2
    · exact habsent (List.mem_map.2 ⟨c, mem_nodes_iff.2 ⟨_, hat⟩, rfl⟩)

/-! ## Insertions -/

/-- **What an insertion has done**: at the position of the container is now the container with one
more child, and ids that were distinct still are. -/
theorem exists_container_of_insertChild? {container : String} {new : Node}
    (htree : tree.ids.Nodup) (hnew : new.ids.Nodup)
    (h : tree.insertChild? container new = some t) : t.ids.Nodup ∧
    ∃ (a : List Nat) (n : Node), n.id = container ∧
      t.at? a = some { n with children := some (n.childList ++ [new]) } := by
  have hon : (Operation.insert container new).on? tree = some t := h
  rcases Operation.on?_cases hon with
    ⟨p, n, m, rfl, hn, hbefore, hmakes, rfl⟩ | ⟨_, _, _, _, hdelete, -⟩
  case inr => cases hdelete
  cases hmakes with
  | insert _ _ _ fresh =>
    -- the container with its new child still has the id, so it is where the container was
    have hid : ({ n with children := some (n.childList ++ [new]) } : Node).id = container := hn
    refine ⟨?_, p.position, n, hn, at?_of_firstSpot? (firstSpot?_plug hid p hbefore)⟩
    rw [(ids_plug_append p n new).nodup_iff, List.nodup_append]
    refine ⟨htree, hnew, fun x hx y hy heq => ?_⟩
    exact fresh y hy (heq ▸ hx)

/-- **Parents match what is found**: with distinct ids there is a parent for every id but the root's
and those that do not occur; the parent is the one node that has what is found among its children; and
a node that was put into a container is the last child of the parent of its id, the container. -/
theorem findParent?_matches (h : tree.ids.Nodup) :
    (∀ id, tree.findParent? id = none ↔ id = tree.id ∨ id ∉ tree.ids) ∧
    (∀ id p, tree.findParent? id = some p → ∃ a i n, tree.find? id = some n ∧
      tree.firstSpot? id = some ⟨a ++ [i], n⟩ ∧ tree.at? a = some p ∧ p.childList[i]? = some n ∧
      ∀ m ∈ tree.nodes, n ∈ m.childList → m = p) ∧
    ∀ container new t, new.ids.Nodup → tree.insertChild? container new = some t →
      ∃ p, t.findParent? new.id = some p ∧ p.id = container ∧ p.childList.getLast? = some new := by
  refine ⟨fun id => findParent?_eq_none_iff h, fun id p hp => ?_, fun container new t hnew ht => ?_⟩
  · obtain ⟨a, i, n, ha, hn, rfl⟩ := exists_child_of_findParent? hp
    have hspot := firstSpot?_of_at? h (at?_concat.2 ⟨p, ha, hn⟩)
    -- distinct ids make the node found the only one of its id, and so its parent the only parent
    refine ⟨a, i, n, ?_, hspot, ha, hn, fun m hm hnm => ?_⟩
    · rw [find?_eq, hspot]
      rfl
    · obtain ⟨b, hb⟩ := mem_nodes_iff.1 hm
      obtain ⟨j, hj⟩ := List.mem_iff_getElem?.1 hnm
      obtain ⟨rfl, -⟩ := eq_of_child_id_eq h ha hn hb hj rfl
      exact Option.some.inj (hb.symm.trans ha)
  · -- the container is found again in the new tree, with the new child at the end
    obtain ⟨hids, a, n, hn, hat⟩ := exists_container_of_insertChild? h hnew ht
    have hlast : (n.childList ++ [new])[n.childList.length]? = some new := List.getElem?_concat_length
    exact ⟨_, findParent?_of_child hids hat hlast, hn, List.getLast?_concat⟩

/-- A page with a card, a list under the card and a button behind it. -/
def shelvedPage : Node :=
  ⟨"root", .blank (some .container),
    some [⟨"card", .blank (some .card),
        some [.make "note" (.blank (some .text)), .make "shelf" (.blank (some .container))], {}⟩,
      .make "save" (.blank (some .button))], {}⟩

/-- A box with a label in it. -/
def labelledBox : Node :=
  ⟨"box", .blank (some .container), some [.make "label" (.blank (some .text))], {}⟩

/-- The root has no parent, the list has the card, and the box that is put under the list has the
list. -/
theorem findParent?_matches_shelvedPage :
    shelvedPage.ids.Nodup ∧ labelledBox.ids.Nodup ∧ shelvedPage.findParent? "root" = none ∧
    (∃ p n, shelvedPage.findParent? "shelf" = some p ∧ shelvedPage.find? "shelf" = some n ∧
      n ∈ p.childList ∧ ∀ m ∈ shelvedPage.nodes, n ∈ m.childList → m = p) ∧
    ∃ t p, shelvedPage.insertChild? "shelf" labelledBox = some t ∧ t.findParent? "box" = some p ∧
      p.id = "shelf" ∧ p.childList.getLast? = some labelledBox := by
  have hids : shelvedPage.ids.Nodup := by decide +kernel
  have hnew : labelledBox.ids.Nodup := by decide +kernel
  obtain ⟨hnone, hparent, hinsert⟩ := findParent?_matches hids
  have hsome : (shelvedPage.findParent? "shelf").isSome := by decide +kernel
  obtain ⟨p, hp⟩ := Option.isSome_iff_exists.1 hsome
  obtain ⟨_, _, n, hn, -, -, hchild, honly⟩ := hparent "shelf" p hp
  have hdone : (shelvedPage.insertChild? "shelf" labelledBox).isSome := by decide +kernel
  obtain ⟨t, ht⟩ := Option.isSome_iff_exists.1 hdone
  obtain ⟨q, hq, hid, hlast⟩ := hinsert "shelf" labelledBox t hnew ht
  exact ⟨hids, hnew, (hnone "root").2 (.inl rfl),
    ⟨p, n, hp, hn, List.mem_of_getElem? hchild, honly⟩, t, q, ht, hq, hid, hlast⟩

end PageBuilder.Node
