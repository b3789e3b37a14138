/-
  Revisions: what an edit writes, said for every id at once.

  An edit goes to the first node of an id, along a way of its own, and two edits of one tree take two
  ways.  Where an id occurs once there is no need for a way: a REVISION says for every id what becomes
  of the nodes that have it, and is carried out in one pass over the whole tree.

  Program:        `revised` — the tree under a revision.
  Specification:  `revised_comm` — two revisions commute if neither writes what the other writes, or
                  touches what the other adds; `revised_plug`, `revised_fill` — a revision of one id
                  is carried out at the place of that id, hence is an edit there.
  Crux:           a revision is DATA — props, behavior, nodes to add, ids to take out — so that
                  whether two of them meet is asked part by part, and one induction on the tree
                  serves every pair of edits.
-/
import PageBuilder.Proofs.Node.Place

namespace PageBuilder.Node

/-! ## Revisions -/

/-- **A revision**: what becomes of the nodes of each id. -/
structure Revision where
  /-- The props that are written. -/
  props : String → Option Props := fun _ => none
  /-- The behavior that is written. -/
  behavior : String → Option Behavior := fun _ => none
  /-- The nodes that are put behind the children, if there is a list of them. -/
  added : String → List Node := fun _ => []
  /-- Whether the nodes of an id are taken out, with everything under them. -/
  removed : String → Bool := fun _ => false

mutual
/-- **The tree** under a revision; its root is not taken out. -/
def revised (r : Revision) : Node → Node
  | ⟨i, p, none, b⟩ => ⟨i, (r.props i).getD p, none, (r.behavior i).getD b⟩
  | ⟨i, p, some cs, b⟩ =>
    ⟨i, (r.props i).getD p, some (revisedAll r cs ++ r.added i), (r.behavior i).getD b⟩

def revisedAll (r : Revision) : List Node → List Node
  | [] => []
  | n :: ns => if r.removed n.id then revisedAll r ns else revised r n :: revisedAll r ns
end

variable {r q : Revision} {id : String}

/-- A revision, part by part. -/
theorem revised_eq (r : Revision) (n : Node) :
    revised r n = ⟨n.id, (r.props n.id).getD n.props,
      n.children.map fun cs => revisedAll r cs ++ r.added n.id,
      (r.behavior n.id).getD n.behavior⟩ := by
  obtain ⟨i, p, cs, b⟩ := n
  cases cs <;> rfl

@[simp] theorem id_revised (r : Revision) (n : Node) : (revised r n).id = n.id := by
  rw [revised_eq]

theorem props_revised (r : Revision) (n : Node) :
    (revised r n).props = (r.props n.id).getD n.props := by
  rw [revised_eq]

theorem behavior_revised (r : Revision) (n : Node) :
    (revised r n).behavior = (r.behavior n.id).getD n.behavior := by
  rw [revised_eq]

/-- A revision neither takes a list of children away nor makes one. -/
theorem isSome_children_revised (r : Revision) (n : Node) :
    (revised r n).children.isSome = n.children.isSome := by
  rw [revised_eq]
  cases n.children <;> rfl

/-- The trees of a list are revised one by one. -/
theorem revisedAll_append (r : Revision) (ms ns : List Node) :
    revisedAll r (ms ++ ns) = revisedAll r ms ++ revisedAll r ns := by
  induction ms with
  | nil => rfl
  | cons m ms ih =>
    rw [List.cons_append, revisedAll, revisedAll, ih]
    split <;> rfl

/-- What is under a revised node was under the node, revised, or was added. -/
theorem mem_childList_revised {n c : Node} (h : c ∈ (revised r n).childList) :
    (∃ d ∈ n.childList, c = revised r d) ∨ c ∈ r.added n.id := by
  -- a tree of the list is taken out, or is there revised
  have hall : ∀ ds : List Node, c ∈ revisedAll r ds → ∃ d ∈ ds, c = revised r d := by
    intro ds
    induction ds with
    | nil => nofun
    | cons d ds ih =>
      intro hc
      rw [revisedAll] at hc
      split at hc
      · obtain ⟨e, he, heq⟩ := ih hc
        exact ⟨e, List.mem_cons_of_mem _ he, heq⟩
      · rcases List.mem_cons.1 hc with hc | hc
        · exact ⟨d, List.mem_cons_self, hc⟩
        · obtain ⟨e, he, heq⟩ := ih hc
          exact ⟨e, List.mem_cons_of_mem _ he, heq⟩
  rw [revised_eq] at h
  unfold childList at h ⊢
  -- without a list there is nowhere to put what is added
  cases hcs : n.children with
  | none =>
    rw [hcs] at h
    nomatch h
  | some cs =>
    rw [hcs] at h
    rcases List.mem_append.1 h with h | h
    · exact Or.inl (hall cs h)
    · exact Or.inr h

/-- **The nodes of a revised tree**: those of the tree, revised, and those under an added node. -/
theorem mem_nodes_revised : ∀ n m : Node, m ∈ (revised r n).nodes →
    (∃ d ∈ n.nodes, m = revised r d) ∨ ∃ i, ∃ k ∈ r.added i, m ∈ k.nodes := by
  refine induct fun n ih m h => ?_
  rw [nodes_cons] at h
  rcases List.mem_cons.1 h with h | h
  · refine Or.inl ⟨n, ?_, h⟩
    rw [nodes_cons]
    exact List.mem_cons_self
  · obtain ⟨c, hc, hm⟩ := List.mem_flatMap.1 h
    -- a child is an old one revised, or one that was added here
    rcases mem_childList_revised hc with ⟨d, hd, rfl⟩ | hadded
    · rcases ih d hd m hm with ⟨e, he, heq⟩ | hadded
      · refine Or.inl ⟨e, ?_, heq⟩
        rw [nodes_cons]
        exact List.mem_cons_of_mem _ (List.mem_flatMap.2 ⟨d, hd, he⟩)
      · exact Or.inr hadded
    · exact Or.inr ⟨n.id, c, hadded, hm⟩

/-! ## Revisions that do not meet -/

/-- **Apart**: no props, behavior or list of children is written by both, and neither revises what
the other adds. -/
structure Revision.Apart (r q : Revision) : Prop where
  props : ∀ i, r.props i = none ∨ q.props i = none
  behavior : ∀ i, r.behavior i = none ∨ q.behavior i = none
  added : ∀ i, r.added i = [] ∨ q.added i = []
  /-- What the first one adds is left alone by the second. -/
  left : ∀ i, revisedAll q (r.added i) = r.added i
  /-- What the second one adds is left alone by the first. -/
  right : ∀ i, revisedAll r (q.added i) = q.added i

theorem getD_getD_comm {α : Type} {a b : Option α} (h : a = none ∨ b = none) (c : α) :
    a.getD (b.getD c) = b.getD (a.getD c) := by
  rcases h with rfl | rfl <;> rfl

theorem append_comm_of_eq_nil {ms ns : List Node} (h : ms = [] ∨ ns = []) :
    ms ++ ns = ns ++ ms := by
  rcases h with rfl | rfl <;> simp

/-- Revisions that commute on every tree of a list commute on the list. -/
theorem revisedAll_comm {cs : List Node}
    (h : ∀ c ∈ cs, revised r (revised q c) = revised q (revised r c)) :
    revisedAll r (revisedAll q cs) = revisedAll q (revisedAll r cs) := by
  induction cs with
  | nil => rfl
  | cons c cs ih =>
    have hcs := ih fun d hd => h d (List.mem_cons_of_mem _ hd)
    have hc := h c List.mem_cons_self
    -- a child goes if either revision takes it out, and both go by its id, which neither changes
    by_cases hr : r.removed c.id = true
    · by_cases hq : q.removed c.id = true
      · rw [revisedAll, if_pos hq, hcs, revisedAll, if_pos hr]
      · rw [revisedAll, if_neg hq, revisedAll, id_revised, if_pos hr, hcs, revisedAll, if_pos hr]
    · by_cases hq : q.removed c.id = true
      · rw [revisedAll, if_pos hq, hcs, revisedAll, if_neg hr, revisedAll, id_revised, if_pos hq]
      · rw [revisedAll, if_neg hq, revisedAll, id_revised, if_neg hr, hcs, hc, revisedAll,
          if_neg hr, revisedAll, id_revised, if_neg hq]

/-- **Revisions apart from each other commute.** -/
theorem revised_comm (h : r.Apart q) :
    ∀ n : Node, revised r (revised q n) = revised q (revised r n) := by
  refine induct fun n ih => ?_
  have hprops := getD_getD_comm (h.props n.id) n.props
  have hbehavior := getD_getD_comm (h.behavior n.id) n.behavior
  -- what either adds is not touched by the other, and only one of them adds here
  have hchildren : (n.children.map fun cs => revisedAll q cs ++ q.added n.id).map
        (fun cs => revisedAll r cs ++ r.added n.id)
      = (n.children.map fun cs => revisedAll r cs ++ r.added n.id).map
        (fun cs => revisedAll q cs ++ q.added n.id) := by
    cases hcs : n.children with
    | none => rfl
    | some cs =>
      have hlist : n.childList = cs := congrArg (·.getD []) hcs
      rw [hlist] at ih
      have hcomm := revisedAll_comm ih
      have hadded := append_comm_of_eq_nil (h.added n.id)
      show some (revisedAll r (revisedAll q cs ++ q.added n.id) ++ r.added n.id)
        = some (revisedAll q (revisedAll r cs ++ r.added n.id) ++ q.added n.id)
      rw [revisedAll_append, revisedAll_append, h.right, h.left, hcomm, List.append_assoc,
        List.append_assoc, hadded]
  rw [revised_eq r (revised q n), revised_eq q (revised r n), id_revised, id_revised,
    props_revised, props_revised, behavior_revised, behavior_revised, revised_eq q n,
    revised_eq r n, hprops, hbehavior]
  dsimp only
  rw [hchildren]

/-! ## Revisions of one id -/

/-- A revision that leaves all nodes alone but those of one id. -/
structure Revision.Only (r : Revision) (id : String) : Prop where
  props : ∀ i, i ≠ id → r.props i = none
  behavior : ∀ i, i ≠ id → r.behavior i = none
  added : ∀ i, i ≠ id → r.added i = []
  removed : ∀ i, i ≠ id → r.removed i = false

/-- A node of another id is revised below only. -/
theorem revised_of_id_ne (h : r.Only id) {n : Node} (hn : n.id ≠ id) :
    revised r n = { n with children := n.children.map (revisedAll r) } := by
  rw [revised_eq, h.props _ hn, h.behavior _ hn, h.added _ hn]
  obtain ⟨i, p, cs, b⟩ := n
  cases cs with
  | none => rfl
  | some cs =>
    show (⟨i, p, some (revisedAll r cs ++ []), b⟩ : Node) = ⟨i, p, some (revisedAll r cs), b⟩
    rw [List.append_nil]

/-- A list stays as it is when every tree of it stays, and none of them is taken out. -/
theorem revisedAll_eq_self_of (h : r.Only id) {ns : List Node}
    (hns : ∀ n ∈ ns, n.id ≠ id ∧ revised r n = n) : revisedAll r ns = ns := by
  induction ns with
  | nil => rfl
  | cons n ns ih =>
    obtain ⟨hid, hn⟩ := hns n List.mem_cons_self
    have hrest := ih fun m hm => hns m (List.mem_cons_of_mem _ hm)
    rw [revisedAll, if_neg (by rw [h.removed _ hid]; exact Bool.false_ne_true), hn, hrest]

/-- A tree without the id stays as it is. -/
theorem revised_eq_self (h : r.Only id) : ∀ n : Node, id ∉ n.ids → revised r n = n := by
  refine induct fun n ih hid => ?_
  rw [ids_cons, List.mem_cons, not_or] at hid
  have hchildren : revisedAll r n.childList = n.childList := by
    refine revisedAll_eq_self_of h fun c hc => ?_
    have hcid : id ∉ c.ids := fun hmem => hid.2 (List.mem_flatMap.2 ⟨c, hc, hmem⟩)
    exact ⟨fun heq => hcid (heq ▸ id_mem_ids c), ih c hc hcid⟩
  rw [revised_of_id_ne h (Ne.symm hid.1)]
  -- with no writing for this id, what is left of the revision is the list
  obtain ⟨i, p, cs, b⟩ := n
  cases cs with
  | none => rfl
  | some cs =>
    have hcs : revisedAll r cs = cs := hchildren
    show (⟨i, p, some (revisedAll r cs), b⟩ : Node) = ⟨i, p, some cs, b⟩
    rw [hcs]

/-- A revision for an id that no tree of a list has leaves the list alone. -/
theorem revisedAll_eq_self (h : r.Only id) {ns : List Node} (hid : id ∉ ns.flatMap ids) :
    revisedAll r ns = ns := by
  refine revisedAll_eq_self_of h fun n hn => ?_
  have hnid : id ∉ n.ids := fun hmem => hid (List.mem_flatMap.2 ⟨n, hn, hmem⟩)
  exact ⟨fun heq => hnid (heq ▸ id_mem_ids n), revised_eq_self h n hnid⟩

/-! ## Revisions at a place -/

/-- The ids that the walk meets behind what is at a place. -/
def Place.idsAfter (p : Place) : List String := p.after.map (·.id)

/-- Behind a place are the ids behind it in the subtree, and those of the children behind. -/
theorem Place.mem_idsAfter_cons {l : Level} {p : Place} :
    id ∈ idsAfter (l :: p) ↔ id ∈ idsAfter p ∨ id ∈ l.right.flatMap ids := by
  unfold idsAfter
  rw [after_cons, List.map_append, map_id_flatMap, List.mem_append]

/-- A revision for an id that is not around a place goes on to what is at the place. -/
theorem revised_over (h : r.Only id) {l : Level} (hroot : id ≠ l.id)
    (hleft : id ∉ l.left.flatMap ids) (hright : id ∉ l.right.flatMap ids) (ns : List Node) :
    revised r (l.over ns) = l.over (revisedAll r ns) := by
  have hne : (l.over ns).id ≠ id := Ne.symm hroot
  rw [revised_of_id_ne h hne]
  show (⟨l.id, l.props, some (revisedAll r (l.left ++ (ns ++ l.right))), l.behavior⟩ : Node) = _
  rw [revisedAll_append, revisedAll_append, revisedAll_eq_self h hleft,
    revisedAll_eq_self h hright]
  rfl

/-- **A revision of an id that is not around a place** is carried out at the place. -/
theorem revised_fill (h : r.Only id) (l : Level) (p : Place)
    (hbefore : id ∉ Place.idsBefore (l :: p)) (hafter : id ∉ Place.idsAfter (l :: p))
    (ns : List Node) : revised r (Place.fill l p ns) = Place.fill l p (revisedAll r ns) := by
  induction p generalizing l with
  | nil =>
    rw [Place.mem_idsBefore_cons, not_or, not_or] at hbefore
    rw [Place.mem_idsAfter_cons, not_or] at hafter
    exact revised_over h hbefore.1 hbefore.2.1 hafter.2 ns
  | cons m p ih =>
    rw [Place.mem_idsBefore_cons, not_or, not_or] at hbefore
    rw [Place.mem_idsAfter_cons, not_or] at hafter
    have hbelow := ih m hbefore.2.2 hafter.1
    -- the child on the way is not taken out, since the way has no node of the id
    have hkept : r.removed (Place.fill m p ns).id = false := by
      have hm : id ≠ m.id := by
        rw [Place.mem_idsBefore_cons, not_or] at hbefore
        exact hbefore.2.2.1
      rw [Place.id_fill]
      exact h.removed _ (Ne.symm hm)
    have hway : revisedAll r [Place.fill m p ns] = [Place.fill m p (revisedAll r ns)] := by
      rw [revisedAll, if_neg (by rw [hkept]; exact Bool.false_ne_true), hbelow]
      rfl
    rw [Place.fill, revised_over h hbefore.1 hbefore.2.1 hafter.2, hway]
    rfl

/-- A revision that takes nothing out is carried out at the place of its id. -/
theorem revised_plug (h : r.Only id) (hkept : ∀ i, r.removed i = false) (p : Place)
    (hbefore : id ∉ p.idsBefore) (hafter : id ∉ p.idsAfter) (n : Node) :
    revised r (p.plug n) = p.plug (revised r n) := by
  cases p with
  | nil => rfl
  | cons l p =>
    have hsingle : revisedAll r [n] = [revised r n] := by
      rw [revisedAll, if_neg (by rw [hkept]; exact Bool.false_ne_true)]
      rfl
    rw [Place.plug_cons, revised_fill h l p hbefore hafter, hsingle, Place.plug_cons]

/-- A node at the place of its id, with no other node of the id in the tree. -/
structure Sole (tree : Node) (p : Place) (n : Node) : Prop where
  tree_eq : tree = p.plug n
  before : n.id ∉ p.idsBefore
  below : n.id ∉ n.childList.flatMap ids
  after : n.id ∉ p.idsAfter

/-- **An id that occurs once** has one place. -/
theorem exists_sole {tree : Node} (h : tree.ids.count id = 1) :
    ∃ (p : Place) (n : Node), Sole tree p n ∧ n.id = id := by
  have hmem : id ∈ tree.ids := List.count_pos_iff.1 (by omega)
  obtain ⟨p, n, htree, hn, hbefore⟩ := exists_place tree hmem
  -- the occurrence at the place is the one, so there is none below it or behind it
  rw [htree, ids_plug, ids_cons n, hn, List.count_append, List.cons_append, List.count_cons_self,
    List.count_append] at h
  have hbelow : (n.childList.flatMap ids).count id = 0 := by omega
  have hafter : (p.after.map (·.id)).count id = 0 := by omega
  refine ⟨p, n, ⟨htree, ?_, ?_, ?_⟩, hn⟩
  · rw [hn]
    exact hbefore
  · rw [hn]
    exact List.count_eq_zero.1 hbelow
  · rw [hn]
    exact List.count_eq_zero.1 hafter

/-- A revision that takes nothing out writes at the place of its id. -/
theorem Sole.revised_eq {tree n : Node} {p : Place} (hn : Sole tree p n) (h : r.Only n.id)
    (hkept : ∀ i, r.removed i = false) :
    revised r tree = p.plug ⟨n.id, (r.props n.id).getD n.props,
      n.children.map (· ++ r.added n.id), (r.behavior n.id).getD n.behavior⟩ := by
  -- the id does not occur under its own node
  have hbelow : ∀ cs, n.children = some cs → revisedAll r cs = cs := by
    intro cs hcs
    have hlist : n.childList = cs := congrArg (·.getD []) hcs
    refine revisedAll_eq_self h ?_
    rw [← hlist]
    exact hn.below
  rw [hn.tree_eq, revised_plug h hkept p hn.before hn.after, Node.revised_eq]
  cases hcs : n.children with
  | none => rfl
  | some cs =>
    rw [Option.map_some, Option.map_some, hbelow cs hcs]

/-- A revision that takes an id out takes it from its place. -/
theorem Sole.revised_removed {n : Node} {l : Level} {p : Place} {tree : Node}
    (hn : Sole tree (l :: p) n) (h : r.Only n.id) (hremoved : r.removed n.id = true) :
    revised r tree = Place.fill l p [] := by
  have hnone : revisedAll r [n] = [] := by
    rw [revisedAll, if_pos hremoved]
    rfl
  rw [hn.tree_eq, Place.plug_cons, revised_fill h l p hn.before hn.after, hnone]

end PageBuilder.Node
