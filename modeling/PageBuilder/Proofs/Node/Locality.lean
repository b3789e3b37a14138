/-
  What an edit leaves alone.

  An edit names its node by an id, and an id may occur more than once: the node that is meant is the
  first one in the order of the walk.

  Programs:       `Operation.on?` — the four edits.
  Specification:  `on?_eq_some_iff_makes` — an insertion or an update succeeds exactly when it applies
                  to the first node of its id, and then replaces that node and no other;
                  `delete?_cutOut` — a deletion takes the first node of its id out of the list of its
                  parent, and nothing else; `delete?_insertChild?` — it undoes an insertion.
  Crux:           `on?_plug_eq_some_iff` — at the place of the first node of its id, an edit IS what it
                  makes of that node; `shell_changedAt` and `at?_changedAt_aside` say the rest for any
                  change at a position.
-/
import Mathlib.Tactic.Tauto
import PageBuilder.Proofs.Node.Operation
import PageBuilder.Proofs.Node.Position

namespace PageBuilder.Node

/-! ## Trees that differ at one position -/

/-- **Trees that differ at one position**: every node off the way to it is the same, and a node on the
way keeps its id, props, behavior and number of children. -/
structure ChangedOnlyAt (p : List Nat) (n m : Node) : Prop where
  aside : ∀ q, ¬ q <+: p → ¬ p <+: q → m.at? q = n.at? q
  above : ∀ q, q <+: p → q ≠ p → ∃ a b, n.at? q = some a ∧ m.at? q = some b ∧
    b.shell = a.shell ∧ b.childList.length = a.childList.length

variable {tree t n m : Node}

/-- A change at a position is a change there only. -/
theorem changedOnlyAt_changedAt (f : Node → Node) {p : List Nat} (h : n.at? p = some m) :
    ChangedOnlyAt p n (n.changedAt f p) := by
  refine ⟨fun q hq hp => at?_changedAt_aside hq hp, ?_⟩
  rintro q ⟨r, rfl⟩ hne
  rw [at?_append] at h
  obtain ⟨a, ha, -⟩ := Option.bind_eq_some_iff.1 h
  cases r with
  | nil => exact absurd (List.append_nil q).symm hne
  | cons i r =>
    refine ⟨a, a.changedAt f (i :: r), ha, ?_, shell_changedAt f i r a, ?_⟩
    · rw [at?_changedAt, ha]
      rfl
    · rw [childList_changedAt, List.length_modify]

/-- Below the root: the nodes at the root keep their props, the other children are the same, and the
children on the way differ at the rest of the position. -/
theorem ChangedOnlyAt.below {i : Nat} {p : List Nat} {a b : Node} (h : ChangedOnlyAt (i :: p) n m)
    (ha : n.childList[i]? = some a) (hb : m.childList[i]? = some b) :
    m.props = n.props ∧ m.childList.take i = n.childList.take i ∧
      m.childList.drop (i + 1) = n.childList.drop (i + 1) ∧ ChangedOnlyAt p a b := by
  obtain ⟨n', m', hn', hm', hshell, -⟩ := h.above [] List.nil_prefix (List.cons_ne_nil i p).symm
  obtain rfl : n = n' := Option.some.inj hn'
  obtain rfl : m = m' := Option.some.inj hm'
  -- a child aside of the way is itself aside of the position
  have hother : ∀ j, j ≠ i → m.childList[j]? = n.childList[j]? := by
    intro j hj
    have haside := h.aside [j] (fun hprefix => hj (List.cons_prefix_cons.1 hprefix).1)
      fun hprefix => hj (List.cons_prefix_cons.1 hprefix).1.symm
    simpa [at?] using haside
  refine ⟨congrArg Shell.props hshell, List.ext_getElem? fun j => ?_, List.ext_getElem? fun j => ?_, ?_⟩
  · rw [List.getElem?_take, List.getElem?_take]
    split
    · next hj => exact hother j (Nat.ne_of_lt hj)
    · rfl
  · rw [List.getElem?_drop, List.getElem?_drop]
    exact hother _ (by omega)
  · -- a position below the child is that position behind the step to the child
    have hat : ∀ q, n.at? (i :: q) = a.at? q ∧ m.at? (i :: q) = b.at? q := by
      intro q
      rw [at?, at?, ha, hb]
      exact ⟨rfl, rfl⟩
    refine ⟨fun q hq hp => ?_, fun q hq hne => ?_⟩
    · rw [← (hat q).1, ← (hat q).2]
      exact h.aside (i :: q) (fun hprefix => hq (List.cons_prefix_cons.1 hprefix).2)
        fun hprefix => hp (List.cons_prefix_cons.1 hprefix).2
    · rw [← (hat q).1, ← (hat q).2]
      exact h.above (i :: q) (List.cons_prefix_cons.2 ⟨rfl, hq⟩)
        fun heq => hne (List.cons.inj heq).2

/-! ## Insertions and updates -/

namespace Operation

variable {o : Operation}

/-- **An edit acts on the first node of its id and nowhere else**: it succeeds exactly when there is
such a node and it applies to it; the edited tree is then the tree with that node replaced by what the
edit makes of it, so every node off the way there is the same and every node above it keeps its id,
props, behavior and number of children. -/
theorem on?_eq_some_iff_makes (ho : ∀ id, o ≠ .delete id) (tree t : Node) :
    tree.find? o.target = (tree.firstSpot? o.target).map (·.node) ∧
    (o.on? tree = some t ↔ ∃ s m, tree.firstSpot? o.target = some s ∧ o.Makes tree s.node m ∧
      t = tree.changedAt (fun _ => m) s.position) ∧
    ∀ s, tree.firstSpot? o.target = some s → tree.at? s.position = some s.node ∧
      (o.on? tree = some t → ChangedOnlyAt s.position tree t) := by
  have hiff : o.on? tree = some t ↔ ∃ s m, tree.firstSpot? o.target = some s ∧
      o.Makes tree s.node m ∧ t = tree.changedAt (fun _ => m) s.position := by
    constructor
    · intro h
      -- the place that the edit goes to is the spot of the first node of the id
      rcases on?_cases h with ⟨p, n, m, rfl, hn, hbefore, hmakes, rfl⟩ | ⟨id, _, _, _, hdelete, -⟩
      · exact ⟨⟨p.position, n⟩, m, firstSpot?_plug hn p hbefore, hmakes,
          (changedAt_position (fun _ => m) p n).symm⟩
      · exact absurd hdelete (ho id)
    · -- and that spot is a place
      rintro ⟨⟨position, n⟩, m, hs, hmakes, rfl⟩
      obtain ⟨p, rfl, hn, hbefore, rfl⟩ := exists_place_of_firstSpot? hs
      have hplug := changedAt_position (fun _ => m) p n
      exact (on?_plug_eq_some_iff ho hn hbefore).2 ⟨m, hmakes, hplug.symm⟩
  refine ⟨find?_eq o.target tree, hiff, fun s hs => ⟨at?_of_firstSpot? hs, fun h => ?_⟩⟩
  obtain ⟨s', m, hs', -, rfl⟩ := hiff.1 h
  obtain rfl : s = s' := Option.some.inj (hs.symm.trans hs')
  exact changedOnlyAt_changedAt _ (at?_of_firstSpot? hs)

/-- A page with two cards of one id, the first one with a text on it. -/
def twinCards : Node :=
  ⟨"root", .blank (some .container),
    some [⟨"card", .blank (some .card), some [.make "note" (.blank (some .text))], {}⟩,
      ⟨"card", .blank (some .card), some [], {}⟩], {}⟩

/-- Of two cards with the id, the first one gets the new node. -/
theorem on?_eq_some_iff_makes_twinCards :
    (∀ id, insert "card" (.make "next" (.blank (some .button))) ≠ .delete id) ∧
    ∃ t, on? twinCards (.insert "card" (.make "next" (.blank (some .button)))) = some t ∧
      ChangedOnlyAt [0] twinCards t := by
  have ho : ∀ id, insert "card" (.make "next" (.blank (some .button))) ≠ .delete id := by
    intro id
    nofun
  have hdone : (on? twinCards (.insert "card" (.make "next" (.blank (some .button))))).isSome := by
    decide +kernel
  obtain ⟨t, ht⟩ := Option.isSome_iff_exists.1 hdone
  obtain ⟨-, -, hchanged⟩ := on?_eq_some_iff_makes ho twinCards t
  exact ⟨ho, t, ht, (hchanged ⟨[0], _⟩ rfl).2 ht⟩

end Operation

/-! ## Deletions -/

/-- **A subtree cut out**: the tree differs at the parent only, the parent only in its list, and that
list only in the child that is gone. -/
structure CutOut (p : List Nat) (i : Nat) (n tree t : Node) : Prop where
  /-- The ids of the subtree are cut out of those of the tree as one block. -/
  block : ∃ before after, tree.ids = before ++ (n.ids ++ after) ∧ t.ids = before ++ after ∧
    n.id ∉ before
  elsewhere : ChangedOnlyAt p tree t
  parent : ∃ a b, tree.at? p = some a ∧ t.at? p = some b ∧ a.childList[i]? = some n ∧
    b.shell = a.shell ∧ b.childList = a.childList.eraseIdx i
  /-- The nodes under the other children stay; those behind the child move up with it. -/
  siblings : ∀ j q, j ≠ i → t.at? (p ++ (if i < j then j - 1 else j) :: q) = tree.at? (p ++ j :: q)

/-- What is left of the list of a parent, and of what is under it. -/
theorem exists_withoutChild {p : List Nat} {i : Nat} (h : tree.at? (p ++ [i]) = some n) :
    ∃ a, tree.at? p = some a ∧ a.childList[i]? = some n ∧
      (tree.changedAt (withoutChild i) p).at? p = some (a.withoutChild i) := by
  rw [at?_append] at h
  obtain ⟨a, ha, hn⟩ := Option.bind_eq_some_iff.1 h
  obtain ⟨c, hc, hcn⟩ := Option.bind_eq_some_iff.1 hn
  obtain rfl : c = n := Option.some.inj hcn
  have hchanged := at?_changedAt (withoutChild i) p [] tree
  rw [List.append_nil, ha] at hchanged
  exact ⟨a, ha, hc, hchanged⟩

/-- **A deletion takes out one subtree**: it fails exactly for the id of the root, the reserved id and
ids that do not occur; otherwise it takes the first node of the id out of the list of its parent, with
everything under it, and leaves all other nodes as they are. -/
theorem delete?_cutOut (tree : Node) (id : String) :
    (tree.delete? id = none ↔ id = tree.id ∨ id = rootId ∨ id ∉ tree.ids) ∧
    ∀ t, tree.delete? id = some t → ∃ p i n, tree.find? id = some n ∧
      tree.firstSpot? id = some ⟨p ++ [i], n⟩ ∧ t = tree.changedAt (withoutChild i) p ∧
      CutOut p i n tree t := by
  refine ⟨delete?_eq_none_iff, fun t h => ?_⟩
  have hon : (Operation.delete id).on? tree = some t := h
  rcases Operation.on?_cases hon with ⟨_, _, _, _, _, _, hmakes, _⟩ |
    ⟨_, l, way, n, hid, -, htree, hn, hbefore, ht⟩
  · nomatch hmakes
  obtain rfl := Operation.delete.inj hid
  -- a fill with nothing is a list without the child at the last step of the way
  obtain ⟨p, i, hposition, hfill⟩ := exists_fill_nil_eq l way n
  rw [← htree, ← ht] at hfill
  have hspot : tree.firstSpot? id = some ⟨p ++ [i], n⟩ := by
    rw [htree, ← Place.plug_cons, firstSpot?_plug hn _ hbefore, hposition]
  obtain ⟨a, ha, hchild, hparent⟩ := exists_withoutChild (at?_of_firstSpot? hspot)
  rw [← hfill] at hparent
  -- found, order of the ids, elsewhere, at the parent, and below the other children
  refine ⟨p, i, n, ?_, hspot, hfill, ?_, ?_, ?_, ?_⟩
  · rw [find?_eq, hspot]
    rfl
  · refine ⟨Place.idsBefore (l :: way), (Place.after (l :: way)).map (·.id), ?_, ?_, hn ▸ hbefore⟩
    · rw [htree, ids_fill, List.flatMap_singleton]
    · rw [ht, ids_fill, List.flatMap_nil, List.nil_append]
  · rw [hfill]
    exact changedOnlyAt_changedAt _ ha
  · exact ⟨a, a.withoutChild i, ha, hparent, hchild, shell_withoutChild i a,
      childList_withoutChild i a⟩
  · intro j q hij
    rw [at?_append, at?_append, ha, hparent, Option.bind_some, Option.bind_some, at?, at?,
      childList_withoutChild, getElem?_eraseIdx_of_ne _ hij]

/-- Of two cards with the id, the first one goes, with the text on it. -/
theorem delete?_cutOut_twinCards :
    ∃ t, Operation.twinCards.delete? "card" = some t ∧ t.ids = ["root", "card"] ∧
      ∃ p i n, Operation.twinCards.find? "card" = some n ∧ CutOut p i n Operation.twinCards t := by
  have hdone : (Operation.twinCards.delete? "card").map ids = some ["root", "card"] := by
    decide +kernel
  obtain ⟨t, ht, hids⟩ := Option.map_eq_some_iff.1 hdone
  obtain ⟨p, i, n, hfound, -, -, hcut⟩ := (delete?_cutOut Operation.twinCards "card").2 t ht
  exact ⟨t, ht, hids, p, i, n, hfound, hcut⟩

/-! ## Insertions undone -/

/-- The level at the end of the list of a node. -/
def lastLevel (n : Node) : Level := ⟨n.id, n.props, n.behavior, n.childList, []⟩

/-- With nothing behind the children, a container is as it was. -/
theorem lastLevel_over_nil (h : n.isContainer = true) : n.lastLevel.over [] = n := by
  obtain ⟨i, props, cs, b⟩ := n
  cases cs with
  | none => simp [isContainer] at h
  | some cs => simp [lastLevel, Level.over, childList]

/-- What is before the end of a list is in the tree. -/
theorem not_mem_idsBefore_lastLevel {p : Place} {id : String} (h : id ∉ (p.plug n).ids) :
    id ∉ Place.idsBefore (p ++ [n.lastLevel]) := by
  rw [ids_plug, ids_cons, List.mem_append, List.mem_append, List.mem_cons] at h
  rw [Place.mem_idsBefore_concat, lastLevel]
  tauto

/-- **A deletion undoes an insertion**: when a subtree was put in, its root is found by its id, and
deleting that id gives back the tree from before, unless the id is the reserved one. -/
theorem delete?_insertChild? {container : String} {new : Node}
    (h : tree.insertChild? container new = some t) :
    t.find? new.id = some new ∧
      t.delete? new.id = if new.id = rootId then none else some tree := by
  have hon : (Operation.insert container new).on? tree = some t := h
  rcases Operation.on?_cases hon with ⟨p, n, m, rfl, -, -, hmakes, rfl⟩ | ⟨_, _, _, _, hdelete, -⟩
  case inr => nomatch hdelete
  cases hmakes with
  | insert _ _ holds fresh =>
    -- the new node is at the end of the list of the container, and its id is nowhere before it
    obtain ⟨l, q, hplace, hfill⟩ := Place.exists_fill_concat p n.lastLevel
    have hfirst : new.id ∉ Place.idsBefore (l :: q) :=
      hplace ▸ not_mem_idsBefore_lastLevel (fresh new.id (id_mem_ids new))
    have hput : p.plug { n with children := some (n.childList ++ [new]) } = Place.fill l q [new] :=
      (hfill [new]).symm
    have htaken : Place.fill l q [] = p.plug n := by
      rw [hfill, lastLevel_over_nil holds]
    rw [hput]
    refine ⟨?_, ?_⟩
    · rw [← Place.plug_cons]
      exact find?_plug rfl _ hfirst
    · split
      · next hid => exact delete?_eq_none_iff.2 (Or.inr (Or.inl hid))
      · next hid => rw [delete?_fill rfl l q hfirst hid, htaken]

/-- A box in a box with the same id. -/
def nestedBoxes : Node :=
  ⟨"box", .blank (some .container), some [.make "box" (.blank (some .container))], {}⟩

/-- Neither the ids of the page nor those of the new subtree are distinct. -/
theorem delete?_insertChild?_twinCards :
    ∃ t, Operation.twinCards.insertChild? "card" nestedBoxes = some t ∧
      t.find? "box" = some nestedBoxes ∧ t.delete? "box" = some Operation.twinCards := by
  have hdone : (Operation.twinCards.insertChild? "card" nestedBoxes).isSome := by decide +kernel
  obtain ⟨t, ht⟩ := Option.isSome_iff_exists.1 hdone
  obtain ⟨hfound, hdeleted⟩ := delete?_insertChild? ht
  rw [if_neg (by decide)] at hdeleted
  exact ⟨t, ht, hfound, hdeleted⟩

end PageBuilder.Node
