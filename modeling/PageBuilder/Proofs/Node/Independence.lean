/-
  Edits that do not depend on each other.

  Programs:       `on?` — the edited tree; `Independent` — when two edits are.
  Specification:  `on?_comm_of_independent` — in a tree with distinct ids, two edits of which neither
                  needs what the other takes away or writes what the other writes can be done in
                  either order, and both orders give one tree.
  Crux:           `on?_eq` — where the id occurs once, an edit IS a revision of the tree, and what it
                  writes is read off the one node it addresses; so the edits commute because their
                  revisions do, and each still succeeds because the other left its node as it was.
-/
import Mathlib.Data.List.Nodup
import PageBuilder.Proofs.Node.Operation
import PageBuilder.Proofs.Node.Revision
import PageBuilder.Proofs.Props.Stable

namespace PageBuilder.Node

namespace Operation

/-- The ids that come with an edit. -/
def gained : Operation → List String
  | .insert _ new => new.ids
  | _ => []

/-- The ids that go with an edit: those of the subtree that a deletion takes out. -/
def lost (tree : Node) : Operation → List String
  | .delete id => ((tree.find? id).map ids).getD []
  | _ => []

/-- **Independent edits**: neither is addressed to what the other takes out, two insertions have
different containers and no id in common, and two edits do not write the props, or the behavior, of
one node. -/
structure Independent (tree : Node) (a b : Operation) : Prop where
  spared : b.target ∉ a.lost tree
  spares : a.target ∉ b.lost tree
  insertions : ∀ c new d other, a = .insert c new → b = .insert d other →
    c ≠ d ∧ ∀ id ∈ new.ids, id ∉ other.ids
  props : ∀ i partials j others, a = .setProps i partials → b = .setProps j others → i ≠ j
  behavior : ∀ i patch j other, a = .setBehavior i patch → b = .setBehavior j other → i ≠ j

variable {tree s t n : Node} {a b o : Operation} {r q : Revision}

/-- Independence does not depend on which of the two comes first. -/
theorem Independent.symm (h : Independent tree a b) : Independent tree b a := by
  refine ⟨h.spares, h.spared, ?_, ?_, ?_⟩
  · intro c new d other hb ha
    obtain ⟨hne, hids⟩ := h.insertions d other c new ha hb
    exact ⟨Ne.symm hne, fun id hnew hother => hids id hother hnew⟩
  · intro i partials j others hb ha
    exact Ne.symm (h.props j others i partials ha hb)
  · intro i patch j other hb ha
    exact Ne.symm (h.behavior j other i patch ha hb)

/-! ## What an edit does to the ids -/

/-- What an edit asks of the whole tree. -/
def Allowed (tree : Node) : Operation → Prop
  | .insert _ new => ∀ id ∈ new.ids, id ∉ tree.ids
  | .delete id => tree.isProtected id = false
  | _ => True

/-- **An edit that succeeds** was addressed to a node of the tree and allowed, and of the ids it adds
and takes away those that it says. -/
theorem on?_spec (h : o.on? tree = some s) : o.target ∈ tree.ids ∧ o.Allowed tree ∧
    (s.ids ++ o.lost tree).Perm (tree.ids ++ o.gained) := by
  rcases on?_cases h with ⟨p, n, m, rfl, hn, -, hmakes, rfl⟩ |
    ⟨id, l, p, n, rfl, hallowed, rfl, hn, hbefore, rfl⟩
  · have hmem : o.target ∈ (p.plug n).ids := by
      rw [ids_plug, ids_cons, hn]
      exact List.mem_append_right _ List.mem_cons_self
    -- neither an update nor a patch touches the ids
    have hkept : m.id = n.id → m.childList = n.childList →
        ((p.plug m).ids ++ []).Perm ((p.plug n).ids ++ []) := by
      intro hid hlist
      rw [ids_plug_congr p hid hlist]
    cases hmakes with
    | insert container new holds fresh =>
      refine ⟨hmem, fresh, ?_⟩
      have hlost : lost (p.plug n) (.insert container new) = [] := rfl
      rw [hlost, List.append_nil]
      exact ids_plug_append p n new
    | setProps id partials props merged differs => exact ⟨hmem, trivial, hkept rfl rfl⟩
    | setBehavior id patch differs => exact ⟨hmem, trivial, hkept rfl rfl⟩
  · have hfind : (Place.fill l p [n]).find? id = some n := by
      rw [← Place.plug_cons]
      exact find?_plug hn _ hbefore
    have hlost : lost (Place.fill l p [n]) (.delete id) = n.ids := by
      rw [lost, hfind]
      rfl
    obtain ⟨hmem, hid⟩ := mem_of_find? hfind
    refine ⟨List.mem_map.2 ⟨n, hmem, hid⟩, hallowed, ?_⟩
    have hgained : gained (.delete id) = [] := rfl
    rw [hlost, hgained, ids_fill, ids_fill, List.flatMap_singleton, List.flatMap_nil,
      List.nil_append, List.append_nil, List.append_assoc]
    exact List.perm_append_comm.append_left _

/-- The ids of a tree that an edit leaves in it. -/
theorem count_target_on? (hids : tree.ids.Nodup) (ha : a.on? tree = some s)
    (hb : b.target ∈ tree.ids) (hspared : b.target ∉ a.lost tree)
    (hgained : b.target ∉ a.gained) : s.ids.count b.target = 1 := by
  obtain ⟨-, -, hperm⟩ := on?_spec ha
  have hcount := hperm.count_eq b.target
  have htree := List.count_eq_one_of_mem hids hb
  rw [List.count_append, List.count_append, List.count_eq_zero.2 hspared,
    List.count_eq_zero.2 hgained] at hcount
  omega

/-! ## The revision behind an edit -/

/-- The revision that writes at one id, or takes it out. -/
def writing (id : String) (props : Option Props) (behavior : Option Behavior) (added : List Node)
    (removed : Bool) : Revision where
  props i := if i = id then props else none
  behavior i := if i = id then behavior else none
  added i := if i = id then added else []
  removed i := if i = id then removed else false

/-- **The revision** that an edit amounts to, given the node it addresses; none if the edit does not
apply to that node. -/
def revision? (n : Node) : Operation → Option Revision
  | .insert id new => if n.isContainer then some (writing id none none [new] false) else none
  | .setProps id partials =>
    (mergeProps? partials n).map fun m => writing id (some m.props) none [] false
  | .setBehavior id patch =>
    (patchBehavior? patch n).map fun m => writing id none (some m.behavior) [] false
  | .delete id => some (writing id none none [] true)

/-- The revision that an edit of a tree amounts to. -/
def revisionIn? (tree : Node) (o : Operation) : Option Revision :=
  (tree.find? o.target).bind fun n => o.revision? n

/-- A merge of props changes the props only, and not their kind. -/
theorem eq_of_mergeProps? {partials : Json.Fields} {m : Node}
    (h : mergeProps? partials n = some m) :
    m = { n with props := m.props } ∧ m.props.kind? = n.props.kind? := by
  obtain ⟨props, hmerged, -, rfl⟩ := mergeProps?_eq_some_iff.1 h
  exact ⟨rfl, Props.kind?_of_merged? hmerged⟩

theorem eq_of_patchBehavior? {patch : Behavior.Patch} {m : Node}
    (h : patchBehavior? patch n = some m) : m = { n with behavior := m.behavior } := by
  obtain ⟨-, rfl⟩ := patchBehavior?_eq_some_iff.1 h
  rfl

/-- **What the revision of an edit is**: it writes what the edit is for, at the id of the edit. -/
structure Writes (o : Operation) (n : Node) (r : Revision) : Prop where
  only : r.Only o.target
  props : ∀ i p, r.props i = some p →
    ∃ partials, o = .setProps i partials ∧ p.kind? = n.props.kind?
  behavior : ∀ i c, r.behavior i = some c → ∃ patch, o = .setBehavior i patch
  added : ∀ i k, k ∈ r.added i → o = .insert i k
  removed : ∀ i, r.removed i = true → o = .delete i

theorem only_writing (id : String) (props : Option Props) (behavior : Option Behavior)
    (added : List Node) (removed : Bool) :
    (writing id props behavior added removed).Only id := by
  constructor <;> intro i hi <;> exact if_neg hi

/-- What an operation makes of the node it addresses is what it is said to write. -/
theorem writes_of_revision? (h : o.revision? n = some r) : o.Writes n r := by
  -- one case for each operation; each writes one part of the revision and leaves the others blank
  cases o with
  | insert id new =>
    rw [revision?] at h
    split at h
    · rw [← Option.some.inj h]
      refine ⟨only_writing _ _ _ _ _, ?_, ?_, ?_, ?_⟩ <;> simp +contextual [writing]
    · nomatch h
  | setProps id partials =>
    obtain ⟨m, hm, rfl⟩ := Option.map_eq_some_iff.1 h
    have hkind := (eq_of_mergeProps? hm).2
    refine ⟨only_writing _ _ _ _ _, ?_, ?_, ?_, ?_⟩ <;> simp +contextual [writing, hkind]
  | setBehavior id patch =>
    obtain ⟨m, -, rfl⟩ := Option.map_eq_some_iff.1 h
    refine ⟨only_writing _ _ _ _ _, ?_, ?_, ?_, ?_⟩ <;> simp +contextual [writing]
  | delete id =>
    rw [← Option.some.inj h]
    refine ⟨only_writing _ _ _ _ _, ?_, ?_, ?_, ?_⟩ <;> simp +contextual [writing]

/-- **Where its id occurs once, an edit is a revision** of the tree. -/
theorem on?_eq (hcount : tree.ids.count o.target = 1) (ho : o.Allowed tree) :
    o.on? tree = (o.revisionIn? tree).map fun r => revised r tree := by
  obtain ⟨p, n, hsole, hn⟩ := exists_sole hcount
  have hbefore : o.target ∉ p.idsBefore := hn ▸ hsole.before
  have hfind : tree.find? o.target = some n := by
    rw [hsole.tree_eq]
    exact find?_plug hn p hbefore
  have hedit : ∀ f : Node → Option Node,
      (editAt o.target f tree).toOption = (f n).map p.plug := by
    intro f
    refine toOption_editAt fun f => ?_
    rw [hsole.tree_eq]
    exact editAt_plug hn p hbefore
  have honly : ∀ {r}, o.revision? n = some r → r.Only n.id := by
    intro r hr
    rw [hn]
    exact (writes_of_revision? hr).only
  rw [revisionIn?, hfind, Option.bind_some]
  cases o with
  | insert container new =>
    have hdup : duplicateId? tree new = none := duplicateId?_eq_none_iff.2 ho
    have happly : on? tree (.insert container new) = (appendChild? new n).map p.plug := by
      show tree.insertChild? container new = _
      rw [insertChild?, hdup]
      exact hedit _
    rw [happly, appendChild?]
    cases hcontainer : n.isContainer with
    | false => simp [revision?, hcontainer]
    | true =>
      have hr : revision? n (.insert container new)
          = some (writing container none none [new] false) := by
        rw [revision?, if_pos hcontainer]
      have hlist : n.children.isSome = true := (Bool.and_eq_true_iff.1 hcontainer).2
      obtain ⟨cs, hcs⟩ := Option.isSome_iff_exists.1 hlist
      have hkept : ∀ i, (writing container none none [new] false).removed i = false := by
        simp [writing]
      rw [hr, Option.map_some, hsole.revised_eq (honly hr) hkept]
      simp [writing, hn, target, hcs, childList]
  | setProps id partials =>
    have happly : on? tree (.setProps id partials) = (mergeProps? partials n).map p.plug := hedit _
    rw [happly, revision?]
    cases hm : mergeProps? partials n with
    | none => rfl
    | some m =>
      have hr : revision? n (.setProps id partials)
          = some (writing id (some m.props) none [] false) := by
        rw [revision?, hm, Option.map_some]
      have hkept : ∀ i, (writing id (some m.props) none [] false).removed i = false := by
        simp [writing]
      rw [Option.map_some, Option.map_some, Option.map_some,
        hsole.revised_eq (honly hr) hkept, (eq_of_mergeProps? hm).1]
      simp [writing, hn, target]
  | setBehavior id patch =>
    have happly : on? tree (.setBehavior id patch) = (patchBehavior? patch n).map p.plug := hedit _
    rw [happly, revision?]
    cases hm : patchBehavior? patch n with
    | none => rfl
    | some m =>
      have hr : revision? n (.setBehavior id patch)
          = some (writing id none (some m.behavior) [] false) := by
        rw [revision?, hm, Option.map_some]
      have hkept : ∀ i, (writing id none (some m.behavior) [] false).removed i = false := by
        simp [writing]
      rw [Option.map_some, Option.map_some, Option.map_some,
        hsole.revised_eq (honly hr) hkept, eq_of_patchBehavior? hm]
      simp [writing, hn, target]
  | delete id =>
    have hprotected : tree.isProtected id = false := ho
    have hremove : on? tree (.delete id) = removeChild? id tree := by
      show tree.delete? id = _
      rw [delete?, hprotected]
      rfl
    -- the root is protected, so the place is below it
    cases p with
    | nil =>
      have hroot : tree.id = id := by
        rw [hsole.tree_eq]
        exact hn
      simp [isProtected, hroot] at hprotected
    | cons l p =>
      have hr : revision? n (.delete id) = some (writing id none none [] true) := rfl
      have htaken : (writing id none none [] true).removed n.id = true := if_pos hn
      rw [hremove, hr, Option.map_some, hsole.revised_removed (honly hr) htaken, hsole.tree_eq,
        Place.plug_cons]
      exact removeChild?_fill hn l p hbefore

/-! ## One edit after another -/

/-- The revision of an edit that succeeds. -/
theorem exists_revisionIn? (hids : tree.ids.Nodup) (ha : a.on? tree = some s) :
    ∃ r, a.revisionIn? tree = some r ∧ s = revised r tree := by
  obtain ⟨hmem, hallowed, -⟩ := on?_spec ha
  have hcount := List.count_eq_one_of_mem hids hmem
  rw [on?_eq hcount hallowed] at ha
  obtain ⟨r, hr, heq⟩ := Option.map_eq_some_iff.1 ha
  exact ⟨r, hr, heq.symm⟩

theorem writes_of_revisionIn? (h : a.revisionIn? tree = some r) :
    ∃ n, tree.find? a.target = some n ∧ a.Writes n r := by
  obtain ⟨n, hn, hr⟩ := Option.bind_eq_some_iff.1 h
  exact ⟨n, hn, writes_of_revision? hr⟩

/-- What is gained is what is added. -/
theorem mem_gained {i : String} {k m : Node} (h : a.Writes n r) (hk : k ∈ r.added i)
    (hm : m ∈ k.nodes) : m.id ∈ a.gained := by
  rw [h.added i k hk]
  exact List.mem_map_of_mem hm

/-- **The node that an edit addresses, after another edit**: it is found still, revised. -/
theorem find?_after (hids : tree.ids.Nodup) (ha : a.revisionIn? tree = some r)
    (hmem : b.target ∈ (revised r tree).ids) (hgained : b.target ∉ a.gained)
    (hn : tree.find? b.target = some n) :
    (revised r tree).find? b.target = some (revised r n) := by
  obtain ⟨_, -, hwrites⟩ := writes_of_revisionIn? ha
  obtain ⟨m, hm⟩ := Option.isSome_iff_exists.1 (contains_iff.2 hmem)
  obtain ⟨hmnodes, hmid⟩ := mem_of_find? hm
  obtain ⟨hnnodes, hnid⟩ := mem_of_find? hn
  rcases mem_nodes_revised tree m hmnodes with ⟨d, hd, rfl⟩ | ⟨i, k, hk, hmk⟩
  · -- the ids of the tree are distinct, so the node was the one that is addressed
    have hdid : d.id = n.id := by rw [hnid, ← hmid, id_revised]
    have hdn : d = n := List.inj_on_of_nodup_map hids hd hnnodes hdid
    rw [hm, hdn]
  · exact absurd (hmid ▸ mem_gained hwrites hk hmk) hgained

/-- The node that the other edit addresses is as good for it as it was. -/
theorem revision?_revised (h : Independent tree a b) (ha : a.revisionIn? tree = some r)
    (hn : tree.find? b.target = some n) : b.revision? (revised r n) = b.revision? n := by
  obtain ⟨m, hm, hwrites⟩ := writes_of_revisionIn? ha
  have hnid : n.id = b.target := (mem_of_find? hn).2
  -- props are written at the target of the first edit only, and they keep the kind
  have hkind : (revised r n).props.kind? = n.props.kind? := by
    rw [props_revised]
    cases hp : r.props n.id with
    | none => rfl
    | some p =>
      obtain ⟨partials, ho, hkept⟩ := hwrites.props _ p hp
      have htarget : a.target = b.target := by
        rw [ho]
        exact hnid
      rw [htarget, hn] at hm
      obtain rfl : n = m := Option.some.inj hm
      exact hkept
  cases b with
  | insert container new =>
    have hcontainer : (revised r n).isContainer = n.isContainer := by
      unfold isContainer Props.isContainer
      rw [hkind, isSome_children_revised]
    rw [revision?, revision?, hcontainer]
  | setProps id others =>
    have hprops : (revised r n).props = n.props := by
      rw [props_revised]
      cases hp : r.props n.id with
      | none => rfl
      | some p =>
        obtain ⟨partials, ho, -⟩ := hwrites.props _ p hp
        exact absurd hnid (h.props _ partials id others ho rfl)
    rw [revision?, revision?, mergeProps?, mergeProps?, hprops]
    cases n.props.merged? others with
    | error e => rfl
    | ok p => cases hsame : p.same n.props <;> simp [hsame]
  | setBehavior id other =>
    have hbehavior : (revised r n).behavior = n.behavior := by
      rw [behavior_revised]
      cases hc : r.behavior n.id with
      | none => rfl
      | some c =>
        obtain ⟨patch, ho⟩ := hwrites.behavior _ c hc
        exact absurd hnid (h.behavior _ patch id other ho rfl)
    rw [revision?, revision?, patchBehavior?, patchBehavior?, hbehavior]
    cases (other.apply n.behavior).same n.behavior <;> simp
  | delete id => rfl

/-- What an edit asks of the tree still holds after another edit. -/
theorem allowed_after (h : Independent tree a b) (ha : a.on? tree = some s)
    (hid : s.id = tree.id) (hb : b.Allowed tree) : b.Allowed s := by
  cases b with
  | insert container new =>
    obtain ⟨-, -, hperm⟩ := on?_spec ha
    intro id hnew hs
    have hmem : id ∈ tree.ids ++ a.gained :=
      hperm.subset (List.mem_append_left _ hs)
    -- an id of the edited tree was there before or was gained
    rcases List.mem_append.1 hmem with hmem | hmem
    · exact hb id hnew hmem
    · cases a with
      | insert c first =>
        obtain ⟨-, hdisjoint⟩ := h.insertions c first container new rfl rfl
        exact hdisjoint id hmem hnew
      | setProps | setBehavior | delete => nomatch hmem
  | delete id =>
    have hprotected : tree.isProtected id = false := hb
    show s.isProtected id = false
    unfold isProtected at hprotected ⊢
    rw [hid]
    exact hprotected
  | setProps id partials => trivial
  | setBehavior id patch => trivial

/-- The node an edit addresses is in the tree, so no other edit brings it along. -/
theorem target_notMem_gained (ha : a.on? tree = some s) (hb : b.on? tree = some t) :
    b.target ∉ a.gained := by
  obtain ⟨-, hallowed, -⟩ := on?_spec ha
  obtain ⟨hmem, -, -⟩ := on?_spec hb
  cases a with
  | insert c new => exact fun hnew => hallowed _ hnew hmem
  | setProps | setBehavior | delete => exact List.not_mem_nil

/-- **An edit after an independent one** succeeds, and writes what it would have written before. -/
theorem on?_after (hids : tree.ids.Nodup) (h : Independent tree a b) (ha : a.on? tree = some s)
    (hb : b.on? tree = some t) (hr : a.revisionIn? tree = some r)
    (hq : b.revisionIn? tree = some q) (hs : s = revised r tree) :
    b.on? s = some (revised q s) := by
  obtain ⟨hbmem, hballowed, -⟩ := on?_spec hb
  have hgained := target_notMem_gained ha hb
  have hcount := count_target_on? hids ha hbmem h.spared hgained
  -- the first operation neither took the target of the second away nor added another of its id
  have hmem : b.target ∈ (revised r tree).ids := by
    rw [← hs]
    exact List.count_pos_iff.1 (by omega)
  have hallowed : b.Allowed s := by
    refine allowed_after h ha ?_ hballowed
    rw [hs, id_revised]
  have hrevision : b.revisionIn? s = some q := by
    obtain ⟨n, hn, hbq⟩ := Option.bind_eq_some_iff.1 hq
    rw [revisionIn?, hs, find?_after hids hr hmem hgained hn, Option.bind_some,
      revision?_revised h hr hn, hbq]
  rw [on?_eq hcount hallowed, hrevision]
  rfl

/-! ## Independent edits commute -/

/-- What an edit adds is left alone by an edit of the tree. -/
theorem revisedAll_added (ha : a.revisionIn? tree = some r) (hb : b.revisionIn? tree = some q)
    (hgained : b.target ∉ a.gained) (i : String) : revisedAll q (r.added i) = r.added i := by
  obtain ⟨_, -, haw⟩ := writes_of_revisionIn? ha
  obtain ⟨_, -, hbw⟩ := writes_of_revisionIn? hb
  refine revisedAll_eq_self hbw.only fun hmem => hgained ?_
  obtain ⟨k, hk, hid⟩ := List.mem_flatMap.1 hmem
  obtain ⟨m, hm, hmid⟩ := List.mem_map.1 hid
  exact hmid ▸ mem_gained haw hk hm

/-- The revisions of independent edits do not meet. -/
theorem apart_of_independent (h : Independent tree a b) (ha : a.revisionIn? tree = some r)
    (hb : b.revisionIn? tree = some q) (hgained : b.target ∉ a.gained)
    (hgains : a.target ∉ b.gained) : r.Apart q := by
  obtain ⟨_, -, haw⟩ := writes_of_revisionIn? ha
  obtain ⟨_, -, hbw⟩ := writes_of_revisionIn? hb
  -- in each part of the revisions both can write under one id only if they are in conflict there
  refine ⟨fun i => ?_, fun i => ?_, fun i => ?_, revisedAll_added ha hb hgained,
    revisedAll_added hb ha hgains⟩
  · cases hp : r.props i with
    | none => exact Or.inl rfl
    | some p =>
      cases hq : q.props i with
      | none => exact Or.inr rfl
      | some o =>
        obtain ⟨partials, hset, -⟩ := haw.props i p hp
        obtain ⟨others, hreset, -⟩ := hbw.props i o hq
        exact absurd rfl (h.props i partials i others hset hreset)
  · cases hc : r.behavior i with
    | none => exact Or.inl rfl
    | some c =>
      cases hd : q.behavior i with
      | none => exact Or.inr rfl
      | some d =>
        obtain ⟨patch, hset⟩ := haw.behavior i c hc
        obtain ⟨other, hreset⟩ := hbw.behavior i d hd
        exact absurd rfl (h.behavior i patch i other hset hreset)
  · cases hk : r.added i with
    | nil => exact Or.inl rfl
    | cons k ks =>
      cases hl : q.added i with
      | nil => exact Or.inr rfl
      | cons l ls =>
        have hinsert := haw.added i k (hk ▸ List.mem_cons_self)
        have hother := hbw.added i l (hl ▸ List.mem_cons_self)
        exact absurd rfl (h.insertions i k i l hinsert hother).1

/-- **Independent edits commute**: if two of them succeed on a tree with distinct ids, each succeeds
after the other, and the order does not show in the tree. -/
theorem on?_comm_of_independent (hids : tree.ids.Nodup) (h : Independent tree a b)
    (ha : a.on? tree = some s) (hb : b.on? tree = some t) :
    ∃ u, b.on? s = some u ∧ a.on? t = some u := by
  obtain ⟨r, hr, hs⟩ := exists_revisionIn? hids ha
  obtain ⟨q, hq, ht⟩ := exists_revisionIn? hids hb
  have hfirst := on?_after hids h ha hb hr hq hs
  have hsecond := on?_after hids h.symm hb ha hq hr ht
  have hapart := apart_of_independent h hr hq (target_notMem_gained ha hb)
    (target_notMem_gained hb ha)
  refine ⟨revised q s, hfirst, ?_⟩
  rw [hsecond, hs, ht, revised_comm hapart]

/-- A page with a card on it, and a text after the card. -/
def cardPage : Node :=
  ⟨"root", .blank (some .container),
    some [⟨"card", .blank (some .card), some [.make "title" (.blank (some .text))], {}⟩,
      .make "note" (.blank (some .text))], {}⟩

/-- A node is put into the list that another one is taken from. -/
theorem on?_comm_cardPage :
    cardPage.ids.Nodup ∧
    Independent cardPage (.insert "root" (.make "next" (.blank (some .button)))) (.delete "card") ∧
    ∃ s t u, on? cardPage (.insert "root" (.make "next" (.blank (some .button)))) = some s ∧
      on? cardPage (.delete "card") = some t ∧ on? s (.delete "card") = some u ∧
      on? t (.insert "root" (.make "next" (.blank (some .button)))) = some u := by
  have hids : cardPage.ids.Nodup := by decide +kernel
  have hindependent : Independent cardPage
      (.insert "root" (.make "next" (.blank (some .button)))) (.delete "card") := by
    refine ⟨by decide +kernel, by decide +kernel, ?_, ?_, ?_⟩ <;> intro _ _ _ _ _ h <;> nomatch h
  have hinsert : (on? cardPage (.insert "root" (.make "next" (.blank (some .button))))).isSome := by
    decide +kernel
  have hdelete : (on? cardPage (.delete "card")).isSome := by decide +kernel
  obtain ⟨s, hs⟩ := Option.isSome_iff_exists.1 hinsert
  obtain ⟨t, ht⟩ := Option.isSome_iff_exists.1 hdelete
  obtain ⟨u, hsu, htu⟩ := on?_comm_of_independent hids hindependent hs ht
  exact ⟨hids, hindependent, s, t, u, hs, ht, hsu, htu⟩

end Operation
end PageBuilder.Node
