/-
  Places: the way from the root of a tree down to a node.

  A LEVEL is a node less one of its children, and a PLACE is the levels from the root down; to plug a
  node into a place is to build the tree around it.  What an edit does is said with places once, and
  every later fact about edits follows from it.

  Programs:       `Place.plug`, `Place.fill` — the tree with a node, or with any nodes, at a place.
  Specification:  `editAt_cases` — an edit either meets no node of its id, or it replaces the node
                  that `find?` finds and nothing else; `removeChild?_fill` — removing takes exactly
                  that node out of its parent's list.
  Crux:           `exists_place` — the FIRST node of an id has a place with no such id before it,
                  which is what makes the walk, the edit and the removal meet at the same node.
-/
import PageBuilder.Node.Edit

namespace PageBuilder.Node

/-! ## Induction on trees -/

section Induction

variable {P : Node → Prop}

mutual
/-- **Induction on a tree**: what holds of a node as soon as it holds of its children holds of all. -/
theorem induct (step : ∀ n : Node, (∀ c ∈ n.childList, P c) → P n) : ∀ n : Node, P n
  | ⟨_, _, none, _⟩ => step _ nofun
  | ⟨_, _, some cs, _⟩ => step _ (inductAll step cs)

theorem inductAll (step : ∀ n : Node, (∀ c ∈ n.childList, P c) → P n) :
    ∀ (cs : List Node), ∀ c ∈ cs, P c
  | [], _, h => nomatch h
  | d :: ds, c, h => by
    rcases List.mem_cons.1 h with h | h
    · rw [h]
      exact induct step d
    · exact inductAll step ds c h
end

end Induction

/-! ## Shells: nodes without what is under them -/

/-- A node without what is under it; whether it has a list of children is kept. -/
structure Shell where
  id : String
  props : Props
  hasList : Bool
  behavior : Behavior

def shell (n : Node) : Shell := ⟨n.id, n.props, n.children.isSome, n.behavior⟩

/-- The shells of a tree, in the order of the walk. -/
def shells (n : Node) : List Shell := n.nodes.map shell

theorem preorderAll_eq (ns : List Node) : preorderAll ns = ns.flatMap preorder := by
  induction ns with
  | nil => rfl
  | cons n ns ih => rw [preorderAll, ih, List.flatMap_cons]

/-- The walk of a tree: the root, then the walks of its children. -/
theorem nodes_cons (n : Node) : n.nodes = n :: n.childList.flatMap nodes := by
  rw [nodes_eq, preorder_eq, preorderAll_eq]
  congr 2
  funext c
  exact (nodes_eq c).symm

theorem shells_cons (n : Node) : n.shells = n.shell :: n.childList.flatMap shells := by
  unfold shells
  rw [nodes_cons, List.map_cons, List.map_flatMap]

/-- What holds of every shell of a tree, node by node. -/
theorem forall_shells_iff {Q : Shell → Prop} {n : Node} :
    (∀ s ∈ n.shells, Q s) ↔ Q n.shell ∧ ∀ c ∈ n.childList, ∀ s ∈ c.shells, Q s := by
  rw [shells_cons, List.forall_mem_cons, List.forall_mem_flatMap]

theorem ids_eq (n : Node) : n.ids = n.shells.map (·.id) := by
  unfold ids shells
  rw [List.map_map]
  rfl

theorem ids_cons (n : Node) : n.ids = n.id :: n.childList.flatMap ids := by
  unfold ids
  rw [nodes_cons, List.map_cons, List.map_flatMap]

theorem id_mem_ids (n : Node) : n.id ∈ n.ids := by
  rw [ids_cons]
  exact List.mem_cons_self

theorem map_id_flatMap (ns : List Node) :
    (ns.flatMap shells).map (·.id) = ns.flatMap ids := by
  rw [List.map_flatMap]
  congr 1
  funext n
  exact (ids_eq n).symm

/-! ## Places -/

/-- A node less one of its children: those in front of it and those behind. -/
structure Level where
  id : String
  props : Props
  behavior : Behavior
  left : List Node
  right : List Node

/-- The node of a level, with some nodes where the child was. -/
def Level.over (l : Level) (ns : List Node) : Node :=
  ⟨l.id, l.props, some (l.left ++ (ns ++ l.right)), l.behavior⟩

def Level.shell (l : Level) : Shell := ⟨l.id, l.props, true, l.behavior⟩

/-- Levels, from the root down. -/
abbrev Place := List Level

namespace Place

/-- **The tree** with a node at a place. -/
def plug : Place → Node → Node
  | [], n => n
  | l :: p, n => l.over [plug p n]

/-- The tree with any nodes at a place below the root, where one was. -/
def fill (l : Level) : Place → List Node → Node
  | [], ns => l.over ns
  | m :: p, ns => l.over [fill m p ns]

/-- What the walk meets before the place. -/
def before : Place → List Shell
  | [] => []
  | l :: p => l.shell :: (l.left.flatMap shells ++ before p)

/-- What the walk meets behind what is at the place. -/
def after : Place → List Shell
  | [] => []
  | l :: p => after p ++ l.right.flatMap shells

/-- The ids that the walk meets before the place. -/
def idsBefore (p : Place) : List String := p.before.map (·.id)

theorem plug_cons (l : Level) (p : Place) (n : Node) : plug (l :: p) n = fill l p [n] := by
  induction p generalizing l with
  | nil => rfl
  | cons m p ih => exact congrArg (fun t => l.over [t]) (ih m)

@[simp] theorem id_fill (l : Level) (p : Place) (ns : List Node) : (fill l p ns).id = l.id := by
  cases p <;> rfl

/-- Which node stands at a place does not matter for the id of the root, unless the place is the
root. -/
theorem id_plug_congr (p : Place) {m n : Node} (h : m.id = n.id) : (p.plug m).id = (p.plug n).id := by
  cases p with
  | nil => exact h
  | cons l p => rfl

theorem before_cons (l : Level) (p : Place) :
    before (l :: p) = l.shell :: (l.left.flatMap shells ++ before p) := rfl

theorem after_cons (l : Level) (p : Place) :
    after (l :: p) = after p ++ l.right.flatMap shells := rfl

/-- An id before a place is the id of a node above it or occurs left of one of these. -/
theorem mem_idsBefore_cons {l : Level} {p : Place} {id : String} :
    id ∈ idsBefore (l :: p) ↔ id = l.id ∨ id ∈ l.left.flatMap ids ∨ id ∈ idsBefore p := by
  unfold idsBefore
  rw [before_cons, List.map_cons, List.map_append, map_id_flatMap, List.mem_cons, List.mem_append]
  rfl

/-- The ids before a place one level further down. -/
theorem mem_idsBefore_concat {p : Place} {l : Level} {id : String} :
    id ∈ idsBefore (p ++ [l]) ↔ id ∈ idsBefore p ∨ id = l.id ∨ id ∈ l.left.flatMap ids := by
  induction p with
  | nil =>
    rw [List.nil_append, mem_idsBefore_cons]
    simp [idsBefore, before]
  | cons m p ih =>
    rw [List.cons_append, mem_idsBefore_cons, ih, mem_idsBefore_cons, or_assoc, or_assoc]

/-- A place one level further down, as a place below the root. -/
theorem exists_fill_concat (p : Place) (m : Level) : ∃ (l : Level) (q : Place),
    p ++ [m] = l :: q ∧ ∀ ns, fill l q ns = plug p (m.over ns) := by
  induction p with
  | nil => exact ⟨m, [], rfl, fun _ => rfl⟩
  | cons k p ih =>
    obtain ⟨l, q, hconcat, hfill⟩ := ih
    refine ⟨k, l :: q, congrArg (k :: ·) hconcat, fun ns => ?_⟩
    rw [fill, hfill]
    rfl

end Place

/-- A level around some nodes: what it has in front of them, they, and what it has behind them. -/
theorem shells_over (l : Level) (ns : List Node) :
    (l.over ns).shells = l.shell :: (l.left.flatMap shells
      ++ (ns.flatMap shells ++ l.right.flatMap shells)) := by
  rw [shells_cons]
  show l.shell :: (l.left ++ (ns ++ l.right)).flatMap shells = _
  rw [List.flatMap_append, List.flatMap_append]

/-- The shells around a place stay the same, whatever is put there. -/
theorem shells_fill (l : Level) (p : Place) (ns : List Node) :
    (Place.fill l p ns).shells
      = Place.before (l :: p) ++ (ns.flatMap shells ++ Place.after (l :: p)) := by
  induction p generalizing l with
  | nil => simp [Place.fill, Place.before, Place.after, shells_over]
  | cons m p ih =>
    rw [Place.fill, shells_over, List.flatMap_singleton, ih m, Place.before_cons l,
      Place.after_cons l]
    simp only [List.append_assoc, List.cons_append]

/-- The walk of a tree meets what comes before a place, then the subtree there, then the rest. -/
theorem shells_plug (p : Place) (n : Node) :
    (p.plug n).shells = p.before ++ (n.shells ++ p.after) := by
  cases p with
  | nil => simp [Place.plug, Place.before, Place.after]
  | cons l p => rw [Place.plug_cons, shells_fill, List.flatMap_singleton]

/-- What is put at a place is all that is new in the tree. -/
theorem mem_shells_plug {p : Place} {m : Node} {s : Shell} (h : s ∈ (p.plug m).shells) (n : Node) :
    s ∈ (p.plug n).shells ∨ s ∈ m.shells := by
  rw [shells_plug, List.mem_append, List.mem_append] at h ⊢
  rcases h with h | h | h
  · exact Or.inl (Or.inl h)
  · exact Or.inr h
  · exact Or.inl (Or.inr (Or.inr h))

theorem mem_shells_plug_of_mem {p : Place} {n : Node} {s : Shell} (h : s ∈ n.shells) :
    s ∈ (p.plug n).shells := by
  rw [shells_plug, List.mem_append, List.mem_append]
  exact Or.inr (Or.inl h)

/-! ## The ids around a place -/

theorem ids_plug (p : Place) (n : Node) :
    (p.plug n).ids = p.idsBefore ++ (n.ids ++ p.after.map (·.id)) := by
  rw [ids_eq, shells_plug, List.map_append, List.map_append, ids_eq n]
  rfl

/-- Only ids and lists of children matter to the ids of a tree. -/
theorem ids_plug_congr (p : Place) {m n : Node} (hid : m.id = n.id)
    (hlist : m.childList = n.childList) : (p.plug m).ids = (p.plug n).ids := by
  rw [ids_plug, ids_plug, ids_cons m, ids_cons n, hid, hlist]

/-- A child appended somewhere in a tree adds its ids. -/
theorem ids_plug_append (p : Place) (n node : Node) :
    (p.plug { n with children := some (n.childList ++ [node]) }).ids.Perm
      ((p.plug n).ids ++ node.ids) := by
  -- a new child is the last node of its container, so its ids come behind those of the container
  have hids : ({ n with children := some (n.childList ++ [node]) } : Node).ids
      = n.ids ++ node.ids := by
    rw [ids_cons, ids_cons n]
    show n.id :: (n.childList ++ [node]).flatMap ids = _
    rw [List.flatMap_append, List.flatMap_singleton, List.cons_append]
  rw [ids_plug, ids_plug, hids, List.append_assoc, List.append_assoc, List.append_assoc]
  exact (List.perm_append_comm.append_left n.ids).append_left p.idsBefore

theorem ids_fill (l : Level) (p : Place) (ns : List Node) :
    (Place.fill l p ns).ids = Place.idsBefore (l :: p)
      ++ (ns.flatMap ids ++ (Place.after (l :: p)).map (·.id)) := by
  rw [ids_eq, shells_fill, List.map_append, List.map_append, map_id_flatMap]
  rfl

/-- Taking a subtree out takes its ids and leaves the others in order. -/
theorem ids_fill_sublist (l : Level) (p : Place) (n : Node) :
    (Place.fill l p []).ids.Sublist (Place.fill l p [n]).ids := by
  rw [ids_fill, ids_fill, List.flatMap_nil, List.nil_append]
  exact (List.sublist_append_right _ _).append_left _

/-! ## The first node of an id -/

/-- **The place of the first node** of an id. -/
theorem exists_place {id : String} : ∀ tree : Node, id ∈ tree.ids →
    ∃ (p : Place) (n : Node), tree = p.plug n ∧ n.id = id ∧ id ∉ p.idsBefore := by
  refine induct fun tree ih h => ?_
  by_cases hroot : tree.id = id
  · exact ⟨[], tree, rfl, hroot, List.not_mem_nil⟩
  · rw [ids_cons] at h
    have hbelow : id ∈ tree.childList.flatMap ids := by
      rcases List.mem_cons.1 h with h | h
      · exact absurd h.symm hroot
      · exact h
    -- the first child with the id under it, and the way on from there
    obtain ⟨c, hc⟩ : ∃ c, tree.childList.find? (fun c => decide (id ∈ c.ids)) = some c := by
      obtain ⟨d, hd, hid⟩ := List.mem_flatMap.1 hbelow
      exact Option.isSome_iff_exists.1 (List.find?_isSome.2 ⟨d, hd, decide_eq_true hid⟩)
    obtain ⟨hid, left, right, hsplit, hleft⟩ := List.find?_eq_some_iff_append.1 hc
    have hmem : c ∈ tree.childList := by
      rw [hsplit]
      exact List.mem_append_right _ List.mem_cons_self
    obtain ⟨p, n, hplug, hn, hbefore⟩ := ih c hmem (of_decide_eq_true hid)
    refine ⟨⟨tree.id, tree.props, tree.behavior, left, right⟩ :: p, n, ?_, hn, ?_⟩
    · obtain ⟨i, props, cs, b⟩ := tree
      cases cs with
      | none => exact absurd hmem List.not_mem_nil
      | some cs =>
        have hcs : cs = left ++ c :: right := hsplit
        rw [hcs, hplug]
        rfl
    · rw [Place.mem_idsBefore_cons]
      rintro (h | h | h)
      · exact hroot h.symm
      · obtain ⟨d, hd, hid⟩ := List.mem_flatMap.1 h
        simpa [hid] using hleft d hd
      · exact hbefore h

theorem find?_eq_none {id : String} {tree : Node} (h : id ∉ tree.ids) : tree.find? id = none := by
  refine List.find?_eq_none.2 fun n hn he => h ?_
  exact List.mem_map.2 ⟨n, hn, eq_of_beq he⟩

/-- What is found is a node of the tree with the id. -/
theorem mem_of_find? {id : String} {tree n : Node} (h : tree.find? id = some n) :
    n ∈ tree.nodes ∧ n.id = id := by
  unfold find? at h
  have hid := List.find?_some h
  exact ⟨List.mem_of_find?_eq_some h, eq_of_beq hid⟩

/-- An id is found where it occurs, and nowhere else. -/
theorem contains_iff {id : String} {tree : Node} : tree.contains id = true ↔ id ∈ tree.ids := by
  constructor
  · intro h
    obtain ⟨n, hn⟩ := Option.isSome_iff_exists.1 h
    obtain ⟨hmem, hid⟩ := mem_of_find? hn
    exact List.mem_map.2 ⟨n, hmem, hid⟩
  · intro h
    obtain ⟨n, hmem, hid⟩ := List.mem_map.1 h
    exact List.find?_isSome.2 ⟨n, hmem, beq_iff_eq.2 hid⟩

/-- Only containers and cards that have a list may get children. -/
theorem isContainer_iff {n : Node} : n.isContainer = true ↔
    (n.kind? = some .container ∨ n.kind? = some .card) ∧ n.children.isSome = true := by
  rw [isContainer, Bool.and_eq_true]
  refine and_congr_left fun _ => ?_
  show n.props.isContainer = true ↔ n.props.kind? = _ ∨ n.props.kind? = _
  unfold Props.isContainer
  cases n.props.kind? with
  | none => simp
  | some k => simp [Kind.isContainer_iff]

/-- Without a duplicate id a subtree shares none with the tree. -/
theorem duplicateId?_eq_none_iff {tree node : Node} :
    duplicateId? tree node = none ↔ ∀ id ∈ node.ids, id ∉ tree.ids := by
  unfold duplicateId?
  rw [List.find?_eq_none]
  simp only [List.contains_iff_mem]

/-- Looking up an id finds the node at its first place. -/
theorem find?_plug {id : String} {n : Node} (hn : n.id = id) :
    ∀ p : Place, id ∉ p.idsBefore → (p.plug n).find? id = some n
  | [], _ => by
    unfold find?
    rw [Place.plug, nodes_cons]
    exact List.find?_cons_of_pos (beq_iff_eq.2 hn)
  | l :: p, h => by
    rw [Place.mem_idsBefore_cons, not_or, not_or] at h
    obtain ⟨hroot, hleft, hbefore⟩ := h
    -- the walk passes over the root and over all that is left of the way
    have hskip : (l.left.flatMap nodes).find? (fun m => m.id == id) = none := by
      refine List.find?_eq_none.2 fun m hm he => hleft ?_
      obtain ⟨c, hc, hm⟩ := List.mem_flatMap.1 hm
      exact List.mem_flatMap.2 ⟨c, hc, List.mem_map.2 ⟨m, hm, eq_of_beq he⟩⟩
    have hfound : (Place.plug p n).nodes.find? (fun m => m.id == id) = some n := find?_plug hn p hbefore
    unfold find?
    rw [Place.plug, nodes_cons, List.find?_cons_of_neg (by simpa [Level.over] using Ne.symm hroot)]
    show ((l.left ++ ([Place.plug p n] ++ l.right)).flatMap nodes).find? _ = some n
    rw [List.flatMap_append, List.find?_append, hskip, Option.none_or, List.flatMap_append,
      List.flatMap_singleton, List.find?_append, hfound, Option.some_or]

/-! ## Edits -/

section Edit

variable {id : String} {f : Node → Option Node}

/-- An edit passes over the trees in front that do not have the id. -/
theorem editAtAll_append {left : List Node} (h : ∀ c ∈ left, editAt id f c = .absent)
    (ns : List Node) : editAtAll id f (left ++ ns) = (editAtAll id f ns).map (left ++ ·) := by
  induction left with
  | nil =>
    rw [List.nil_append]
    cases editAtAll id f ns <;> rfl
  | cons c cs ih =>
    -- the first tree does not have the id, so the edit goes on with the next
    rw [List.cons_append, editAtAll, h c List.mem_cons_self,
      ih fun d hd => h d (List.mem_cons_of_mem _ hd)]
    cases editAtAll id f ns <;> rfl

/-- An edit goes down to the children of a node that does not have the id; where it passes there is
a list. -/
theorem editAt_of_id_ne {tree : Node} (h : tree.id ≠ id) :
    editAt id f tree = (editAtAll id f tree.childList).map
      fun cs => ⟨tree.id, tree.props, some cs, tree.behavior⟩ := by
  obtain ⟨i, props, cs, b⟩ := tree
  cases cs with
  | none =>
    rw [editAt, if_neg h]
    rfl
  | some cs =>
    rw [editAt, if_neg h]
    rfl

theorem editAt_eq_absent : ∀ tree : Node, id ∉ tree.ids → editAt id f tree = .absent := by
  refine induct fun tree ih h => ?_
  rw [ids_cons, List.mem_cons, not_or] at h
  -- by induction no child has it, and so the list of children does not change
  have hskip : ∀ c ∈ tree.childList, editAt id f c = .absent := fun c hc =>
    ih c hc fun hid => h.2 (List.mem_flatMap.2 ⟨c, hc, hid⟩)
  have hbelow : editAtAll id f tree.childList = .absent := by
    rw [← List.append_nil tree.childList, editAtAll_append hskip []]
    rfl
  rw [editAt_of_id_ne (Ne.symm h.1), hbelow]
  rfl

/-- **An edit at the first place** of an id replaces what is there. -/
theorem editAt_plug {n : Node} (hn : n.id = id) :
    ∀ p : Place, id ∉ p.idsBefore → editAt id f (p.plug n) = (Edit.ofOption (f n)).map p.plug
  | [], _ => by
    -- at the place itself the edit applies
    obtain ⟨i, props, cs, b⟩ := n
    have happly : editAt id f ⟨i, props, cs, b⟩ = .ofOption (f ⟨i, props, cs, b⟩) := by
      cases cs with
      | none => rw [editAt, if_pos hn]
      | some cs => rw [editAt, if_pos hn]
    rw [Place.plug, happly]
    cases f ⟨i, props, cs, b⟩ <;> rfl
  | l :: p, h => by
    rw [Place.mem_idsBefore_cons, not_or, not_or] at h
    obtain ⟨hroot, hleft, hbefore⟩ := h
    -- above it the node and all that is left of the way are passed over
    have hskip : ∀ c ∈ l.left, editAt id f c = .absent := fun c hc =>
      editAt_eq_absent c fun hid => hleft (List.mem_flatMap.2 ⟨c, hc, hid⟩)
    have hlist : (l.over [Place.plug p n]).childList = l.left ++ ([Place.plug p n] ++ l.right) := rfl
    rw [Place.plug, editAt_of_id_ne (Ne.symm hroot), hlist, editAtAll_append hskip,
      List.singleton_append, editAtAll, editAt_plug hn p hbefore]
    cases f n <;> rfl

end Edit

/-- **What an edit does**: it meets no node of its id, or it replaces the node that is found. -/
theorem editAt_cases (id : String) (tree : Node) :
    (tree.find? id = none ∧ ∀ f, editAt id f tree = .absent) ∨
    ∃ (p : Place) (n : Node), tree = p.plug n ∧ n.id = id ∧ id ∉ p.idsBefore ∧
      tree.find? id = some n ∧ ∀ f, editAt id f tree = (Edit.ofOption (f n)).map p.plug := by
  by_cases h : id ∈ tree.ids
  · obtain ⟨p, n, rfl, hn, hbefore⟩ := exists_place tree h
    exact Or.inr ⟨p, n, rfl, hn, hbefore, find?_plug hn p hbefore,
      fun f => editAt_plug hn p hbefore⟩
  · exact Or.inl ⟨find?_eq_none h, fun f => editAt_eq_absent tree h⟩

/-- An edit at a node that was found. -/
theorem toOption_editAt {id : String} {tree : Node} {f : Node → Option Node} {n : Node} {p : Place}
    (h : ∀ f, editAt id f tree = (Edit.ofOption (f n)).map p.plug) :
    (editAt id f tree).toOption = (f n).map p.plug := by
  rw [h]
  cases f n <;> rfl

section Node

variable {n m : Node}

/-- A child can be put under a container only, and goes behind the others. -/
theorem appendChild?_eq_some_iff {new : Node} : appendChild? new n = some m ↔
    n.isContainer = true ∧ { n with children := some (n.childList ++ [new]) } = m := by
  unfold appendChild?
  split <;> simp [*]

/-- Props are merged where they fit and make a difference. -/
theorem mergeProps?_eq_some_iff {partials : Json.Fields} : mergeProps? partials n = some m ↔
    ∃ props, n.props.merged? partials = .ok props ∧ props.same n.props = false ∧
      { n with props := props } = m := by
  unfold mergeProps?
  cases n.props.merged? partials with
  | error e => simp
  | ok props => cases hsame : props.same n.props <;> simp [hsame]

/-- Behavior is patched where that makes a difference. -/
theorem patchBehavior?_eq_some_iff {patch : Behavior.Patch} : patchBehavior? patch n = some m ↔
    (patch.apply n.behavior).same n.behavior = false ∧
      { n with behavior := patch.apply n.behavior } = m := by
  unfold patchBehavior?
  cases hsame : (patch.apply n.behavior).same n.behavior <;> simp [hsame]

end Node

/-! ## Removals -/

/-- A deletion passes over the trees in front that neither are nor have what is looked for. -/
theorem removeFrom?_append {id : String} {left : List Node}
    (h : ∀ c ∈ left, c.id ≠ id ∧ removeChild? id c = none) (ns : List Node) :
    removeFrom? id (left ++ ns) = (removeFrom? id ns).map (left ++ ·) := by
  induction left with
  | nil =>
    rw [List.nil_append]
    cases removeFrom? id ns <;> rfl
  | cons c cs ih =>
    -- the first tree neither has the id itself nor below, so the next one is looked at
    obtain ⟨hid, hnone⟩ := h c List.mem_cons_self
    rw [List.cons_append, removeFrom?, if_neg hid, hnone,
      ih fun d hd => h d (List.mem_cons_of_mem _ hd)]
    cases removeFrom? id ns <;> rfl

theorem removeChild?_eq (id : String) (tree : Node) :
    removeChild? id tree = (removeFrom? id tree.childList).map
      fun cs => ⟨tree.id, tree.props, some cs, tree.behavior⟩ := by
  obtain ⟨i, props, cs, b⟩ := tree
  cases cs <;> rfl

theorem removeChild?_eq_none {id : String} :
    ∀ tree : Node, id ∉ tree.childList.flatMap ids → removeChild? id tree = none := by
  refine induct fun tree ih h => ?_
  -- a child is not the node, and by induction it does not have it below
  have hskip : ∀ c ∈ tree.childList, c.id ≠ id ∧ removeChild? id c = none := by
    intro c hc
    have hid : id ∉ c.ids := fun hid => h (List.mem_flatMap.2 ⟨c, hc, hid⟩)
    rw [ids_cons, List.mem_cons, not_or] at hid
    exact ⟨Ne.symm hid.1, ih c hc hid.2⟩
  rw [removeChild?_eq, ← List.append_nil tree.childList, removeFrom?_append hskip []]
  rfl

/-- A child in front of a place is passed over by a removal. -/
theorem removeFrom?_left {id : String} {l : Level} {p : Place}
    (h : id ∉ Place.idsBefore (l :: p)) (ns : List Node) :
    removeFrom? id (l.left ++ ns) = (removeFrom? id ns).map (l.left ++ ·) := by
  rw [Place.mem_idsBefore_cons, not_or, not_or] at h
  refine removeFrom?_append (fun c hc => ?_) ns
  have hid : id ∉ c.ids := fun hid => h.2.1 (List.mem_flatMap.2 ⟨c, hc, hid⟩)
  rw [ids_cons, List.mem_cons, not_or] at hid
  exact ⟨Ne.symm hid.1, removeChild?_eq_none c hid.2⟩

/-- **Removing at the first place** of an id takes what is there out of its parent's list. -/
theorem removeChild?_fill {id : String} {n : Node} (hn : n.id = id) (l : Level) (p : Place)
    (h : id ∉ Place.idsBefore (l :: p)) :
    removeChild? id (Place.fill l p [n]) = some (Place.fill l p []) := by
  induction p generalizing l with
  | nil =>
    rw [removeChild?_eq]
    show (removeFrom? id (l.left ++ ([n] ++ l.right))).map _ = _
    rw [removeFrom?_left h, List.singleton_append, removeFrom?, if_pos hn]
    rfl
  | cons m p ih =>
    have hrest : id ∉ Place.idsBefore (m :: p) := by
      rw [Place.mem_idsBefore_cons, not_or, not_or] at h
      exact h.2.2
    -- the child on the way is looked at first, and is not the node itself
    have hne : (Place.fill m p [n]).id ≠ id := by
      rw [Place.mem_idsBefore_cons, not_or] at hrest
      rw [Place.id_fill]
      exact Ne.symm hrest.1
    rw [removeChild?_eq]
    show (removeFrom? id (l.left ++ ([Place.fill m p [n]] ++ l.right))).map _ = _
    rw [removeFrom?_left h, List.singleton_append, removeFrom?, if_neg hne, ih m hrest]
    rfl

/-- **Deleting at the first place** of an id that is not the reserved one. -/
theorem delete?_fill {id : String} {n : Node} (hn : n.id = id) (l : Level) (p : Place)
    (h : id ∉ Place.idsBefore (l :: p)) (hid : id ≠ rootId) :
    (Place.fill l p [n]).delete? id = some (Place.fill l p []) := by
  -- the id is not that of the root, which comes before every other place
  have hroot : l.id ≠ id := by
    rw [Place.mem_idsBefore_cons, not_or] at h
    exact Ne.symm h.1
  have hprotected : (Place.fill l p [n]).isProtected id = false := by
    simp [isProtected, hroot, hid]
  rw [delete?, hprotected]
  exact removeChild?_fill hn l p h

/-- **What a deletion does** where the id is not protected: it meets no node of the id, or it takes
the node that is found out of its parent's list. -/
theorem delete?_cases {id : String} {tree : Node} (h : tree.isProtected id = false) :
    (tree.find? id = none ∧ tree.delete? id = none) ∨
    ∃ (l : Level) (p : Place) (n : Node), tree = Place.fill l p [n] ∧ n.id = id ∧
      id ∉ Place.idsBefore (l :: p) ∧ tree.find? id = some n ∧
      tree.delete? id = some (Place.fill l p []) := by
  obtain ⟨hroot, hid⟩ : tree.id ≠ id ∧ id ≠ rootId := by
    simpa [isProtected] using h
  by_cases hmem : id ∈ tree.ids
  · obtain ⟨p, n, rfl, hn, hbefore⟩ := exists_place tree hmem
    -- the root's id is protected, so the place is below the root
    cases p with
    | nil => exact absurd hn hroot
    | cons l p =>
      refine Or.inr ⟨l, p, n, Place.plug_cons l p n, hn, hbefore, find?_plug hn _ hbefore, ?_⟩
      rw [Place.plug_cons]
      exact delete?_fill hn l p hbefore hid
  · refine Or.inl ⟨find?_eq_none hmem, ?_⟩
    rw [delete?, h]
    refine removeChild?_eq_none tree fun hbelow => hmem ?_
    rw [ids_cons]
    exact List.mem_cons_of_mem _ hbelow

/-- The ids that a deletion refuses by name. -/
theorem isProtected_iff {id : String} {tree : Node} :
    tree.isProtected id = true ↔ id = tree.id ∨ id = rootId := by
  rw [isProtected, Bool.or_eq_true, beq_iff_eq, beq_iff_eq, @eq_comm _ tree.id]

/-- **A deletion fails** for the id of the root, for the reserved id and for ids that do not occur. -/
theorem delete?_eq_none_iff {id : String} {tree : Node} :
    tree.delete? id = none ↔ id = tree.id ∨ id = rootId ∨ id ∉ tree.ids := by
  rw [← or_assoc, ← isProtected_iff, ← contains_iff, contains]
  cases h : tree.isProtected id with
  | true => simp [delete?, h]
  | false =>
    rcases delete?_cases h with ⟨hfind, hnone⟩ | ⟨l, p, n, -, -, -, hfind, hdone⟩
    · simp [hnone, hfind]
    · simp [hdone, hfind]

/-! ## Trees that are the same

  An edit counts as a change when the trees are not `same`; two trees with one place in common are
  the same only if what is at the place is. -/

/-- What is the same of two nodes that are. -/
theorem same_cases {m n : Node} (h : m.same n = true) :
    m.props.same n.props = true ∧ m.behavior.same n.behavior = true ∧
      sameAll m.childList n.childList = true := by
  obtain ⟨i, p, cs, b⟩ := m
  obtain ⟨j, q, ds, c⟩ := n
  -- trees with and without a list of children are never the same
  cases cs with
  | none =>
    cases ds with
    | none =>
      simp only [same, Bool.and_eq_true] at h
      exact ⟨h.1.2, h.2, rfl⟩
    | some ds => exact absurd h (by simp [same])
  | some cs =>
    cases ds with
    | none => exact absurd h (by simp [same])
    | some ds =>
      simp only [same, Bool.and_eq_true] at h
      exact ⟨h.1.1.2, h.1.2, h.2⟩

/-- Lists of trees that are the same are as long as each other. -/
theorem length_eq_of_sameAll : ∀ {xs ys : List Node}, sameAll xs ys = true → xs.length = ys.length
  | [], [], _ => rfl
  | [], _ :: _, h => nomatch h
  | _ :: _, [], h => nomatch h
  | x :: xs, y :: ys, h => by
    rw [sameAll, Bool.and_eq_true] at h
    rw [List.length_cons, List.length_cons, length_eq_of_sameAll h.2]

theorem sameAll_of_append (left : List Node) {xs ys : List Node}
    (h : sameAll (left ++ xs) (left ++ ys) = true) : sameAll xs ys = true := by
  induction left with
  | nil => exact h
  | cons n left ih =>
    rw [List.cons_append, List.cons_append, sameAll, Bool.and_eq_true] at h
    exact ih h.2

/-- What is in one level of two trees that are the same. -/
theorem sameAll_of_over {l : Level} {ms ns : List Node}
    (h : (l.over ms).same (l.over ns) = true) :
    sameAll (ms ++ l.right) (ns ++ l.right) = true := by
  obtain ⟨-, -, hlist⟩ := same_cases h
  exact sameAll_of_append l.left hlist

/-- What is at one place of two trees that are the same. -/
theorem same_of_plug {m n : Node} :
    ∀ p : Place, (p.plug m).same (p.plug n) = true → m.same n = true
  | [], h => h
  | l :: p, h => by
    have hlist := sameAll_of_over (l := l) h
    rw [List.singleton_append, List.singleton_append, sameAll, Bool.and_eq_true] at hlist
    exact same_of_plug p hlist.1

/-- Two trees that are the same have as many nodes at one place. -/
theorem length_eq_of_fill {ms ns : List Node} (l : Level) (p : Place)
    (h : (Place.fill l p ms).same (Place.fill l p ns) = true) : ms.length = ns.length := by
  induction p generalizing l with
  | nil =>
    -- in the innermost list only the nodes at the place can differ
    have hlength := length_eq_of_sameAll (sameAll_of_over (l := l) h)
    rw [List.length_append, List.length_append] at hlength
    omega
  | cons m p ih =>
    have hlist := sameAll_of_over (l := l) h
    rw [List.singleton_append, List.singleton_append, sameAll, Bool.and_eq_true] at hlist
    exact ih m hlist.1

end PageBuilder.Node
