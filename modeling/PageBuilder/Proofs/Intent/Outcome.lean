/-
  What becomes of an intent.

  An intent stands for one edit of the tree.  `apply` looks at the tree before it hands the edit on,
  so that it can say why a refused intent is refused; here it is shown that these looks agree with the
  edit in every tree, also in one where an id occurs more than once.

  Programs:       `subtree?` — what an intent inserts; `edit?` — the edit it stands for;
                  `refusals` — the reasons to refuse it, in the order of their rank.
  Specification:  `apply_refines_edit` — an intent is accepted exactly when the edit succeeds, and
                  refused for the first reason that there is.
  Crux:           `Effect` — the place of the edited node and what is there afterwards — is derived
                  once from each edit, and carries what every accepted intent is known to do.
-/
import PageBuilder.Intent
import PageBuilder.Proofs.Node.Place

namespace PageBuilder.Intent

/-! ## The edit behind an intent -/

/-- What an intent inserts, and the generated ids it leaves. -/
def subtree? (registry : Registry) (supply : Node.Supply) (tree : Node) :
    Intent → Option (Node × Node.Supply)
  | .addNode _ kind => paletteNode? kind supply
  | .insert _ node => some (node, supply)
  | .addTemplate _ id => (Entries.get? registry id).bind fun t => t.instantiate? tree supply
  | _ => none

/-- **What is inserted** is a new component, a node as it was given, or the copy of a template. -/
theorem subtree?_cases {registry : Registry} {supply : Node.Supply} {tree node : Node} {i : Intent}
    {rest : Node.Supply} (h : i.subtree? registry supply tree = some (node, rest)) :
    (∃ parent kind id, i = .addNode parent kind ∧ node = .make id (.palette kind)) ∨
    (∃ parent, i = .insert parent node) ∨
    (∃ parent template t, i = .addTemplate parent template ∧ t ∈ registry.templates ∧
      t.instantiate? tree supply = some (node, rest)) := by
  cases i with
  | addNode parent kind =>
    cases supply with
    | nil => nomatch h
    | cons s supply =>
      obtain ⟨rfl, -⟩ := Prod.mk.inj (Option.some.inj h)
      exact Or.inl ⟨parent, kind, _, rfl, rfl⟩
  | insert parent given =>
    obtain ⟨rfl, -⟩ := Prod.mk.inj (Option.some.inj h)
    exact Or.inr (Or.inl ⟨parent, rfl⟩)
  | addTemplate parent template =>
    -- the copy of a template that the registry has
    obtain ⟨t, ht, hcopy⟩ := Option.bind_eq_some_iff.1 h
    have hmem : t ∈ registry.templates := List.mem_map_of_mem (Entries.mem_of_get? ht)
    exact Or.inr (Or.inr ⟨parent, template, t, rfl, hmem, hcopy⟩)
  | setProps id partials => nomatch h
  | setBehavior id patch => nomatch h
  | delete id => nomatch h

/-- **The edit** an intent stands for. -/
def edit? (registry : Registry) (supply : Node.Supply) (tree : Node) (i : Intent) : Option Node :=
  match i with
  | .setProps id partials => tree.updateProps? id partials
  | .setBehavior id patch => tree.updateBehavior? id patch
  | .delete id => tree.delete? id
  | .addNode _ _ | .insert _ _ | .addTemplate _ _ =>
    (i.subtree? registry supply tree).bind fun s => tree.insertChild? i.target s.1

/-! ## The reasons to refuse an intent -/

/-- An error, if there is a reason for it. -/
def reason (holds : Prop) [Decidable holds] (e : EditError) : Option EditError :=
  if holds then some e else none

/-- No node has the id. -/
def notFound? (tree : Node) (id : String) : Option EditError :=
  reason (id ∉ tree.ids) (.notFound id)

/-- The node that is found cannot hold children: it is neither a container nor a card, or it has no
list of children. -/
def notAContainer? (tree : Node) (id : String) : Option EditError :=
  (tree.find? id).bind fun n =>
    reason (¬((n.kind? = some .container ∨ n.kind? = some .card) ∧ n.children.isSome))
      (.notAContainer id)

/-- An id of the subtree is one of the tree; of several, the first in the order of the walk counts. -/
def duplicateId? (tree node : Node) : Option EditError :=
  (node.ids.find? fun id => id ∈ tree.ids).map .duplicateId

/-- The merged props do not fit the node that is found. -/
def invalidProps? (tree : Node) (id : String) (partials : Json.Fields) : Option EditError :=
  (tree.find? id).bind fun n =>
    match n.props.merged? partials with
    | .error cause => some (.invalidProps id cause)
    | .ok _ => none

/-- The merged props are those of the node that is found. -/
def sameProps? (tree : Node) (id : String) (partials : Json.Fields) : Option EditError :=
  (tree.find? id).bind fun n =>
    match n.props.merged? partials with
    | .error _ => none
    | .ok p => reason (p.same n.props) (.unchanged id)

/-- The patched behavior is that of the node that is found. -/
def sameBehavior? (tree : Node) (id : String) (patch : Behavior.Patch) : Option EditError :=
  (tree.find? id).bind fun n => reason ((patch.apply n.behavior).same n.behavior) (.unchanged id)

/-- The reasons not to insert: without a subtree, that the generated ids ran out. -/
def insertionRefusals (tree : Node) (parent : String) :
    Option (Node × Node.Supply) → List (Option EditError)
  | none => [some .outOfIds]
  | some (node, _) => [notFound? tree parent, notAContainer? tree parent, duplicateId? tree node]

/-- **The reasons** to refuse an intent, in the order of their rank; one that does not hold is
`none`. -/
def refusals (registry : Registry) (supply : Node.Supply) (tree : Node) (i : Intent) :
    List (Option EditError) :=
  match i with
  | .addNode parent _ | .insert parent _ =>
    insertionRefusals tree parent (i.subtree? registry supply tree)
  | .addTemplate parent id =>
    reason (Entries.get? registry id).isNone (.unknownTemplate id)
      :: insertionRefusals tree parent (i.subtree? registry supply tree)
  | .setProps id partials =>
    [notFound? tree id, invalidProps? tree id partials, sameProps? tree id partials]
  | .setBehavior id patch => [notFound? tree id, sameBehavior? tree id patch]
  | .delete id => [reason (id = tree.id ∨ id = Node.rootId) .rootProtected, notFound? tree id]

/-- **The first reason** to refuse an intent. -/
def refusal? (registry : Registry) (supply : Node.Supply) (tree : Node) (i : Intent) :
    Option EditError :=
  (i.refusals registry supply tree).findSome? id

/-! ## What an accepted intent does -/

/-- **The effect** of an accepted intent: one node is edited, at a place, and all else stays. -/
inductive Effect (registry : Registry) (supply : Node.Supply) (tree result : Node) : Intent → Prop
  | inserted {i : Intent} (p : Node.Place) (n node : Node) (rest : Node.Supply)
      (subtree : i.subtree? registry supply tree = some (node, rest))
      (fresh : ∀ id ∈ node.ids, id ∉ tree.ids)
      (found : tree.find? i.target = some n)
      (container : n.isContainer = true)
      (before : tree = p.plug n)
      (after : result = p.plug { n with children := some (n.childList ++ [node]) }) :
      Effect registry supply tree result i
  | propsSet (id : String) (partials : Json.Fields) (p : Node.Place) (n : Node) (props : Props)
      (found : tree.find? id = some n)
      (merged : n.props.merged? partials = .ok props)
      (differs : props.same n.props = false)
      (before : tree = p.plug n)
      (after : result = p.plug { n with props := props }) :
      Effect registry supply tree result (.setProps id partials)
  | behaviorSet (id : String) (patch : Behavior.Patch) (p : Node.Place) (n : Node)
      (found : tree.find? id = some n)
      (differs : (patch.apply n.behavior).same n.behavior = false)
      (before : tree = p.plug n)
      (after : result = p.plug { n with behavior := patch.apply n.behavior }) :
      Effect registry supply tree result (.setBehavior id patch)
  | deleted (id : String) (l : Node.Level) (p : Node.Place) (n : Node)
      (found : tree.find? id = some n)
      (before : tree = Node.Place.fill l p [n])
      (after : result = Node.Place.fill l p []) :
      Effect registry supply tree result (.delete id)

/-- **A tree that is edited is not the same**. -/
theorem Effect.same_eq_false {registry : Registry} {supply : Node.Supply} {tree result : Node}
    {i : Intent} (h : Effect registry supply tree result i) : result.same tree = false := by
  rw [Bool.eq_false_iff]
  intro hsame
  cases h with
  | inserted p n node rest subtree fresh found container before after =>
    rw [before, after] at hsame
    obtain ⟨-, -, hlist⟩ := Node.same_cases (Node.same_of_plug p hsame)
    -- the container would have as many children as before
    have hlength : (n.childList ++ [node]).length = n.childList.length :=
      Node.length_eq_of_sameAll hlist
    rw [List.length_append, List.length_singleton] at hlength
    omega
  | propsSet id partials p n props found merged differs before after =>
    rw [before, after] at hsame
    obtain ⟨hprops, -, -⟩ := Node.same_cases (Node.same_of_plug p hsame)
    exact Bool.false_ne_true (differs ▸ hprops)
  | behaviorSet id patch p n found differs before after =>
    rw [before, after] at hsame
    obtain ⟨-, hbehavior, -⟩ := Node.same_cases (Node.same_of_plug p hsame)
    exact Bool.false_ne_true (differs ▸ hbehavior)
  | deleted id l p n found before after =>
    rw [before, after] at hsame
    -- there would be as many nodes at the place as before
    have hlength : 0 = 1 := Node.length_eq_of_fill l p hsame
    omega

/-! ## Acceptance and refusal -/

variable {registry : Registry} {supply : Node.Supply} {tree : Node} {i : Intent}

/-- **The outcome** of an intent: refused, with the first reason and no edit, or accepted, with no
reason and the edit. -/
inductive Outcome (registry : Registry) (supply : Node.Supply) (tree : Node) (i : Intent) : Prop
  | refused (e : EditError)
      (reason : i.refusal? registry supply tree = some e)
      (edit : i.edit? registry supply tree = none)
      (result : apply registry supply tree i = .error e)
  | accepted (a : Applied)
      (reason : i.refusal? registry supply tree = none)
      (edit : i.edit? registry supply tree = some a.tree)
      (result : apply registry supply tree i = .ok a)
      (inserted : a.inserted = (i.subtree? registry supply tree).map (·.1.id))
      (effect : Effect registry supply tree a.tree i)

/-! ## Looking before editing -/

theorem lookup_of_find? {id : String} {n : Node} (h : tree.find? id = some n) :
    lookup tree id = .ok n := by
  unfold lookup
  rw [h]

theorem lookup_of_find?_none {id : String} (h : tree.find? id = none) :
    lookup tree id = .error (.notFound id) := by
  unfold lookup
  rw [h]

/-- The reason and the look-up agree on what is not there. -/
theorem notFound?_of_find?_none {id : String} (h : tree.find? id = none) :
    notFound? tree id = some (.notFound id) := by
  have habsent : id ∉ tree.ids := by
    rw [← Node.contains_iff, Node.contains, h]
    exact Bool.false_ne_true
  exact if_pos habsent

/-- A node that is there is no reason to refuse. -/
theorem notFound?_of_find? {id : String} {n : Node} (h : tree.find? id = some n) :
    notFound? tree id = none := by
  have hmem : id ∈ tree.ids := by
    rw [← Node.contains_iff, Node.contains, h]
    rfl
  exact if_neg (not_not_intro hmem)

/-- The reason and the check agree on what may hold children. -/
theorem notAContainer?_of_find? {id : String} {n : Node} (h : tree.find? id = some n) :
    notAContainer? tree id = if n.isContainer then none else some (.notAContainer id) := by
  rw [notAContainer?, h, Option.bind_some]
  simp only [reason, Node.isContainer_iff, ite_not]

/-- The reason names the id that the check finds. -/
theorem duplicateId?_eq (tree node : Node) :
    duplicateId? tree node = (Node.duplicateId? tree node).map .duplicateId := by
  unfold duplicateId? Node.duplicateId?
  simp only [List.contains_eq_mem]

/-- The reason and the check agree on what is protected. -/
theorem rootProtected_eq (tree : Node) (id : String) :
    reason (id = tree.id ∨ id = Node.rootId) .rootProtected
      = if tree.isProtected id then some .rootProtected else none := by
  simp only [reason, Node.isProtected_iff]

/-- Inserting where no node has the id. -/
theorem insertChild?_of_absent {parent : String} {node : Node}
    (h : ∀ f, Node.editAt parent f tree = .absent) : tree.insertChild? parent node = none := by
  unfold Node.insertChild?
  rw [h]
  split <;> rfl

/-- Inserting where a node has the id. -/
theorem insertChild?_of_plug {parent : String} {n : Node} {p : Node.Place} (node : Node)
    (h : ∀ f, Node.editAt parent f tree = (Node.Edit.ofOption (f n)).map p.plug) :
    tree.insertChild? parent node =
      if (Node.duplicateId? tree node).isSome || !n.isContainer then none
      else some (p.plug { n with children := some (n.childList ++ [node]) }) := by
  unfold Node.insertChild?
  rw [h, Node.appendChild?]
  cases (Node.duplicateId? tree node).isSome <;> cases n.isContainer <;> rfl

/-- Inserting under a node that was found. -/
theorem insertUnder_of_find? {parent : String} {node n : Node} (h : tree.find? parent = some n) :
    insertUnder tree parent node supply =
      if !n.isContainer then .error (.notAContainer parent)
      else
        match Node.duplicateId? tree node with
        | some id => .error (.duplicateId id)
        | none =>
          match tree.insertChild? parent node with
          | some t => .ok ⟨t, some node.id, supply⟩
          | none => .error (.notAContainer parent) := by
  unfold insertUnder
  rw [lookup_of_find? h]
  rfl

/-! ## The outcome of each intent -/

/-- An intent that has a subtree to insert. -/
theorem outcome_of_subtree (node : Node) (rest : Node.Supply)
    (hsubtree : i.subtree? registry supply tree = some (node, rest))
    (hreason : i.refusal? registry supply tree
      = (insertionRefusals tree i.target (some (node, rest))).findSome? id)
    (hedit : i.edit? registry supply tree = tree.insertChild? i.target node)
    (happly : apply registry supply tree i = insertUnder tree i.target node rest) :
    Outcome registry supply tree i := by
  rcases Node.editAt_cases i.target tree with ⟨hfind, habsent⟩ | ⟨p, n, htree, -, -, hfind, hplug⟩
  · simp only [insertionRefusals, notFound?_of_find?_none hfind, List.findSome?_cons,
      id_eq] at hreason
    rw [insertUnder, lookup_of_find?_none hfind] at happly
    rw [insertChild?_of_absent habsent] at hedit
    exact .refused (.notFound i.target) hreason hedit happly
  · simp only [insertionRefusals, notFound?_of_find? hfind, notAContainer?_of_find? hfind,
      duplicateId?_eq, List.findSome?_cons, List.findSome?_nil, id_eq] at hreason
    -- the edit asks for the duplicate first, the intent for the container: when both are wrong they
    -- still agree that nothing is inserted
    have hinsert := insertChild?_of_plug node hplug
    rw [insertUnder_of_find? hfind] at happly
    cases hcontainer : n.isContainer with
    | false =>
      rw [hcontainer] at hreason happly hinsert
      rw [hinsert, Bool.not_false, Bool.or_true] at hedit
      exact .refused (.notAContainer i.target) hreason hedit happly
    | true =>
      rw [hcontainer] at hreason happly hinsert
      cases hfresh : Node.duplicateId? tree node with
      | some d =>
        rw [hfresh] at hreason happly hinsert
        exact .refused (.duplicateId d) hreason (hedit.trans hinsert) happly
      | none =>
        rw [hfresh] at hreason happly hinsert
        have hdone : tree.insertChild? i.target node
            = some (p.plug { n with children := some (n.childList ++ [node]) }) := hinsert
        rw [hdone] at happly hedit
        refine .accepted _ hreason hedit happly ?_ ?_
        · rw [hsubtree]
          rfl
        · exact .inserted p n node rest hsubtree (Node.duplicateId?_eq_none_iff.1 hfresh) hfind
            hcontainer htree rfl

/-- **Setting props**: no node, props that do not fit, nothing new, or the new props. -/
theorem outcome_setProps (id : String) (partials : Json.Fields) :
    Outcome registry supply tree (.setProps id partials) := by
  rcases Node.editAt_cases id tree with ⟨hfind, habsent⟩ | ⟨p, n, htree, -, -, hfind, hplug⟩
  · refine .refused (.notFound id) ?_ ?_ ?_
    · simp [refusal?, refusals, notFound?_of_find?_none hfind]
    · rw [edit?, Node.updateProps?, habsent]
      rfl
    · rw [apply, lookup_of_find?_none hfind]
      rfl
  · have hedit : tree.updateProps? id partials = (Node.mergeProps? partials n).map p.plug :=
      Node.toOption_editAt hplug
    have happly : apply registry supply tree (.setProps id partials) =
        match n.props.merged? partials with
        | .error cause => .error (.invalidProps id cause)
        | .ok _ => changed supply (.unchanged id) (tree.updateProps? id partials) := by
      rw [apply, lookup_of_find? hfind]
      rfl
    unfold Node.mergeProps? at hedit
    -- the merge comes before the comparison, so props that do not fit are reported first
    cases hmerged : n.props.merged? partials with
    | error cause =>
      rw [hmerged] at hedit happly
      refine .refused (.invalidProps id cause) ?_ hedit happly
      simp [refusal?, refusals, notFound?_of_find? hfind, invalidProps?, hfind, hmerged]
    | ok props =>
      rw [hmerged] at hedit happly
      dsimp only at hedit happly
      rw [hedit] at happly
      cases hsame : props.same n.props with
      | true =>
        rw [hsame] at hedit happly
        refine .refused (.unchanged id) ?_ hedit happly
        simp [refusal?, refusals, notFound?_of_find? hfind, invalidProps?, sameProps?, hfind,
          hmerged, hsame, reason]
      | false =>
        rw [hsame] at hedit happly
        refine .accepted ⟨p.plug { n with props := props }, none, supply⟩ ?_ hedit happly rfl ?_
        · simp [refusal?, refusals, notFound?_of_find? hfind, invalidProps?, sameProps?, hfind,
            hmerged, hsame, reason]
        · exact .propsSet id partials p n props hfind hmerged hsame htree rfl

/-- **Setting behavior**: no node, nothing new, or the new behavior. -/
theorem outcome_setBehavior (id : String) (patch : Behavior.Patch) :
    Outcome registry supply tree (.setBehavior id patch) := by
  rcases Node.editAt_cases id tree with ⟨hfind, habsent⟩ | ⟨p, n, htree, -, -, hfind, hplug⟩
  · refine .refused (.notFound id) ?_ ?_ ?_
    · simp [refusal?, refusals, notFound?_of_find?_none hfind]
    · rw [edit?, Node.updateBehavior?, habsent]
      rfl
    · rw [apply, lookup_of_find?_none hfind]
      rfl
  · have hedit : tree.updateBehavior? id patch = (Node.patchBehavior? patch n).map p.plug :=
      Node.toOption_editAt hplug
    have happly : apply registry supply tree (.setBehavior id patch) =
        changed supply (.unchanged id) (tree.updateBehavior? id patch) := by
      rw [apply, lookup_of_find? hfind]
      rfl
    unfold Node.patchBehavior? at hedit
    dsimp only at hedit
    rw [hedit] at happly
    cases hsame : (patch.apply n.behavior).same n.behavior with
    | true =>
      rw [hsame] at hedit happly
      refine .refused (.unchanged id) ?_ hedit happly
      simp [refusal?, refusals, notFound?_of_find? hfind, sameBehavior?, hfind, hsame, reason]
    | false =>
      rw [hsame] at hedit happly
      refine .accepted ⟨p.plug { n with behavior := patch.apply n.behavior }, none, supply⟩ ?_ hedit
        happly rfl ?_
      · simp [refusal?, refusals, notFound?_of_find? hfind, sameBehavior?, hfind, hsame, reason]
      · exact .behaviorSet id patch p n hfind hsame htree rfl

/-- **Deleting**: a protected node, no node, or the subtree taken out. -/
theorem outcome_delete (id : String) : Outcome registry supply tree (.delete id) := by
  cases hprotected : tree.isProtected id with
  | true =>
    refine .refused .rootProtected ?_ ?_ ?_
    · simp [refusal?, refusals, rootProtected_eq, hprotected]
    · rw [edit?, Node.delete?, if_pos hprotected]
    · rw [apply, if_pos hprotected]
  | false =>
    -- the protected nodes are excluded before the node is looked up
    have happly : apply registry supply tree (.delete id) =
        (lookup tree id).bind fun _ => changed supply (.notFound id) (tree.delete? id) := by
      rw [apply, if_neg (by rw [hprotected]; exact Bool.false_ne_true)]
      rfl
    rcases Node.delete?_cases hprotected with ⟨hfind, hnone⟩ | ⟨l, p, n, htree, -, -, hfind, hdone⟩
    · refine .refused (.notFound id) ?_ hnone ?_
      · simp [refusal?, refusals, rootProtected_eq, hprotected, notFound?_of_find?_none hfind]
      · rw [happly, lookup_of_find?_none hfind]
        rfl
    · rw [lookup_of_find? hfind, hdone] at happly
      refine .accepted ⟨Node.Place.fill l p [], none, supply⟩ ?_ hdone happly rfl ?_
      · simp [refusal?, refusals, rootProtected_eq, hprotected, notFound?_of_find? hfind]
      · exact .deleted id l p n hfind htree rfl

/-- **Every intent has an outcome.** -/
theorem outcome (registry : Registry) (supply : Node.Supply) (tree : Node) (i : Intent) :
    Outcome registry supply tree i := by
  cases i with
  | addNode parent kind =>
    -- a new component needs an id, or there is nothing to insert
    cases hnode : paletteNode? kind supply with
    | none =>
      refine .refused .outOfIds ?_ ?_ ?_
      · rw [refusal?, refusals, subtree?, hnode]
        rfl
      · rw [edit?, subtree?, hnode, Option.bind_none]
      · rw [apply, hnode]
    | some s =>
      obtain ⟨node, rest⟩ := s
      refine outcome_of_subtree node rest hnode ?_ ?_ ?_
      · simp only [refusal?, refusals, subtree?, hnode, target]
      · rw [edit?, subtree?, hnode, Option.bind_some]
      · rw [apply, hnode]
        rfl
  | insert parent node => exact outcome_of_subtree node supply rfl rfl rfl rfl
  | addTemplate parent template =>
    cases htemplate : Entries.get? registry template with
    | none =>
      refine .refused (.unknownTemplate template) ?_ ?_ ?_
      · simp [refusal?, refusals, htemplate, reason]
      · simp [edit?, subtree?, htemplate]
      · rw [apply, htemplate]
    | some t =>
      have hsubtree : subtree? registry supply tree (.addTemplate parent template)
          = t.instantiate? tree supply := by
        rw [subtree?, htemplate, Option.bind_some]
      have hreason : refusal? registry supply tree (.addTemplate parent template)
          = (insertionRefusals tree parent (t.instantiate? tree supply)).findSome? id := by
        simp [refusal?, refusals, htemplate, reason, hsubtree]
      have hedit : edit? registry supply tree (.addTemplate parent template)
          = (t.instantiate? tree supply).bind fun s => tree.insertChild? parent s.1 := by
        rw [edit?, hsubtree]
        rfl
      -- a copy needs as many ids as the template has nodes
      cases hcopy : t.instantiate? tree supply with
      | none =>
        rw [hcopy] at hreason hedit
        have happly : apply registry supply tree (.addTemplate parent template)
            = .error .outOfIds := by
          rw [apply, htemplate]
          dsimp only
          rw [hcopy]
        exact .refused .outOfIds hreason hedit happly
      | some s =>
        obtain ⟨node, rest⟩ := s
        rw [hcopy] at hsubtree hreason hedit
        have happly : apply registry supply tree (.addTemplate parent template)
            = insertUnder tree parent node rest := by
          rw [apply, htemplate]
          dsimp only
          rw [hcopy]
        exact outcome_of_subtree node rest hsubtree hreason hedit happly
  | setProps id partials => exact outcome_setProps id partials
  | setBehavior id patch => exact outcome_setBehavior id patch
  | delete id => exact outcome_delete id

/-! ## Additions -/

/-- An intent that adds a node that is made for it. -/
def adds : Intent → Bool
  | .addNode _ _ | .addTemplate _ _ => true
  | _ => false

/-- **An addition** tells the id of what it added. -/
theorem exists_inserted {a : Applied} (hi : i.adds = true)
    (h : apply registry supply tree i = .ok a) : ∃ id, a.inserted = some id := by
  cases outcome registry supply tree i with
  | refused e reason edit result =>
    rw [result] at h
    nomatch h
  | accepted b reason edit result inserted effect =>
    rw [result] at h
    obtain rfl : b = a := Except.ok.inj h
    cases effect with
    | inserted p n node rest subtree fresh found container before after =>
      rw [subtree] at inserted
      exact ⟨node.id, inserted⟩
    | propsSet | behaviorSet | deleted => nomatch hi

/-- The reasons to refuse an insertion. -/
theorem mem_insertionRefusals {parent : String} {sub : Option (Node × Node.Supply)} {e : EditError}
    (h : some e ∈ insertionRefusals tree parent sub) :
    e = .outOfIds ∨ (e = .notFound parent ∧ parent ∉ tree.ids) ∨
      e = .notAContainer parent ∨ ∃ id, e = .duplicateId id := by
  cases sub with
  | none =>
    rw [insertionRefusals, List.mem_singleton] at h
    exact Or.inl (Option.some.inj h)
  | some s =>
    rw [insertionRefusals, List.mem_cons, List.mem_cons, List.mem_singleton] at h
    -- the parent is missing, it is no box, or an id is taken
    rcases h with h | h | h
    · unfold notFound? reason at h
      split at h
      · next habsent => exact Or.inr (Or.inl ⟨Option.some.inj h, habsent⟩)
      · nomatch h
    · obtain ⟨n, -, hn⟩ := Option.bind_eq_some_iff.1 h.symm
      unfold reason at hn
      split at hn
      · exact Or.inr (Or.inr (Or.inl (Option.some.inj hn).symm))
      · nomatch hn
    · obtain ⟨id, -, hid⟩ := Option.map_eq_some_iff.1 h.symm
      exact Or.inr (Or.inr (Or.inr ⟨id, hid.symm⟩))

/-- **An addition under a node that is there** is not refused for want of that node, nor because
nothing would change. -/
theorem addition_refused {e : EditError} (hi : i.adds = true) (hparent : tree.contains i.target = true)
    (h : apply registry supply tree i = .error e) :
    e ≠ .notFound i.target ∧ ∀ id, e ≠ .unchanged id := by
  have hreason : some e ∈ i.refusals registry supply tree := by
    cases outcome registry supply tree i with
    | refused e' reason edit result =>
      rw [result] at h
      obtain rfl : e' = e := Except.error.inj h
      obtain ⟨r, hr, hre⟩ := List.exists_of_findSome?_eq_some reason
      exact hre ▸ hr
    | accepted b reason edit result inserted effect =>
      rw [result] at h
      cases h
  -- an added template may also be unknown; what is left are the reasons not to insert
  have hinsertion : (∃ id, e = .unknownTemplate id) ∨
      some e ∈ insertionRefusals tree i.target (i.subtree? registry supply tree) := by
    cases i with
    | addNode parent kind => exact Or.inr hreason
    | addTemplate parent id =>
      rcases List.mem_cons.1 hreason with hreason | hreason
      · unfold reason at hreason
        split at hreason
        · exact Or.inl ⟨id, Option.some.inj hreason⟩
        · cases hreason
      · exact Or.inr hreason
    | insert | setProps | setBehavior | delete => cases hi
  rcases hinsertion with ⟨id, rfl⟩ | hinsertion
  · exact ⟨by rintro ⟨⟩, by rintro _ ⟨⟩⟩
  · -- two of the four reasons are excluded, and the other two ask for nothing
    rcases mem_insertionRefusals hinsertion with rfl | ⟨rfl, habsent⟩ | rfl | ⟨id, rfl⟩
    · exact ⟨by rintro ⟨⟩, by rintro _ ⟨⟩⟩
    · exact absurd (Node.contains_iff.1 hparent) habsent
    · exact ⟨by rintro ⟨⟩, by rintro _ ⟨⟩⟩
    · exact ⟨by rintro ⟨⟩, by rintro _ ⟨⟩⟩

/-! ## The intents refine the edits -/

/-- **An intent refines its edit**: it is accepted, with the edited tree, exactly when the edit
succeeds; the tree then differs from the one before, and the id that is reported is that of the root
of what was inserted.  It is refused with the first reason to do so, and with none else; where there
is no reason the edit succeeds, so what `apply` keeps for an edit that fails is never returned. -/
theorem apply_refines_edit (registry : Registry) (supply : Node.Supply) (tree : Node) (i : Intent) :
    (∀ t, (∃ a, apply registry supply tree i = .ok a ∧ a.tree = t) ↔
      i.edit? registry supply tree = some t) ∧
    (∀ a, apply registry supply tree i = .ok a →
      a.tree.same tree = false ∧ a.inserted = (i.subtree? registry supply tree).map (·.1.id)) ∧
    (∀ e, apply registry supply tree i = .error e ↔ i.refusal? registry supply tree = some e) ∧
    (i.refusal? registry supply tree = none ↔ (i.edit? registry supply tree).isSome = true) := by
  cases outcome registry supply tree i with
  | refused e reason edit result =>
    rw [result, reason, edit]
    refine ⟨fun t => ?_, fun a ha => ?_, fun e' => ?_, ?_⟩
    · constructor
      · rintro ⟨a, ha, -⟩
        cases ha
      · intro h
        cases h
    · cases ha
    · constructor
      · intro h
        rw [Except.error.inj h]
      · intro h
        rw [Option.some.inj h]
    · constructor
      · intro h
        cases h
      · intro h
        cases h
  | accepted a reason edit result inserted effect =>
    rw [result, reason, edit]
    refine ⟨fun t => ?_, fun b hb => ?_, fun e => ?_, fun _ => rfl, fun _ => rfl⟩
    · constructor
      · rintro ⟨b, hb, rfl⟩
        rw [Except.ok.inj hb]
      · intro h
        exact ⟨a, rfl, Option.some.inj h⟩
    · obtain rfl : a = b := Except.ok.inj hb
      exact ⟨effect.same_eq_false, inserted⟩
    · constructor
      · intro h
        cases h
      · intro h
        cases h

end PageBuilder.Intent
