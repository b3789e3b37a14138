/-
  The round trip of a tree over the wire.

  Programs:       `WireStable` — what is written of a tree reads back as that tree;
                  `Stable` — every node of it has stable props, stable behavior, and a list of
                  children just when its kind has one.
  Specification:  `wireStable_iff` — the two are the same; `stable_of_ofJson?` — what is read from a
                  proper value is stable, hence `ofJson?_toJson_of_ofJson?`.
  Crux:           `assemble?` reads one node out of looked up fields, so a node's round trip is a
                  matter of its own fields, and the induction on the tree carries only the lists of
                  children.
-/
import PageBuilder.Proofs.Behavior.Stable
import PageBuilder.Proofs.Node.Shape
import PageBuilder.Proofs.Props.Stable

namespace PageBuilder.Node

/-! ## Stable trees -/

/-- **A tree that comes back from the wire** as it was. -/
def WireStable (n : Node) : Prop := ofJson? n.toJson = some n

instance (n : Node) : Decidable n.WireStable :=
  inferInstanceAs (Decidable (ofJson? n.toJson = some n))

/-- A node that comes back from the wire, whatever is under it. -/
structure Shell.Stable (s : Shell) : Prop where
  props : s.props.Stable
  behavior : s.behavior.Stable
  /-- A kind says whether its nodes have children. -/
  list : ∀ k, s.props.kind? = some k → s.hasList = k.isContainer

/-- Every node of a tree is stable. -/
def Stable (n : Node) : Prop := ∀ s ∈ n.shells, s.Stable

theorem stable_iff {n : Node} : n.Stable ↔ n.shell.Stable ∧ ∀ c ∈ n.childList, c.Stable :=
  forall_shells_iff

/-! ## Children that fit -/

/-- Children that fit the kind are kept as they are. -/
theorem fitChildren_eq_self {p : Props} {cs : Option (List Node)}
    (h : ∀ k, p.kind? = some k → cs.isSome = k.isContainer) : fitChildren p cs = cs := by
  cases p with
  | unknown t fs => rfl
  | known k s =>
    have hk := h k rfl
    unfold fitChildren
    -- the kind has a list, or has none, as the node does
    cases cs with
    | none =>
      dsimp only
      rw [← hk]
      rfl
    | some cs =>
      dsimp only
      rw [← hk]
      rfl

/-! ## What is read is stable -/

/-- Props that are read have the numbers that the fields have. -/
theorem holdProper_of_propsField? {fs m : Json.Fields} (hfs : Json.holdProper fs = true)
    (h : propsField? fs = some m) : Json.holdProper m = true := by
  unfold propsField? at h
  split at h
  · rw [← Option.some.inj h]
    rfl
  · next v hv =>
    cases v with
    | object gs =>
      rw [← Option.some.inj h]
      exact Json.holdProper_iff.1 hfs _ (Entries.mem_of_get? hv)
    | null | bool _ | number _ | string _ | array _ => nomatch h

/-- The reader keeps to what is stable. -/
theorem reading_stable : Reading (fun v => v.isProper = true) Stable where
  fields := Json.holdProper_iff.1
  items := Json.areProper_iff.1
  node {fs children n} hfs hc h := by
    obtain ⟨id, t, m, b, -, -, hm, hb, rfl⟩ := assemble?_eq_some_iff.1 h
    rw [stable_iff]
    refine ⟨⟨?_, stable_of_behavior? hb, fun k hk => isSome_fitChildren hk⟩, ?_⟩
    · exact Props.stable_recover (holdProper_of_propsField? (Json.holdProper_iff.2 hfs) hm)
    · intro c hmem
      exact hc c (mem_fitChildren hmem)

/-- **What is read from a proper value is stable.** -/
theorem stable_of_ofJson? (v : Json) {n : Node} (hv : v.isProper = true)
    (h : ofJson? v = some n) : n.Stable :=
  reading_stable.holds v hv h

/-! ## What is written -/

/-- The fields of a node over the written list of its children. -/
def wireFields (id : String) (p : Props) (list : Option (List Json)) (b : Behavior) :
    Json.Fields :=
  headFields id p
    ++ ((list.map fun vs => ("children", Json.array vs)).toList ++ behaviorFields b)

/-- A tree is written as an object, with the list of its written children. -/
theorem toJson_eq (n : Node) :
    n.toJson = .object (wireFields n.id n.props (n.children.map toJsonAll) n.behavior) := by
  obtain ⟨id, p, cs, b⟩ := n
  cases cs <;> rfl

/-- The fields of a node, apart from its children: what `assemble?` looks up. -/
structure Spells (fs : Json.Fields) (id : String) (p : Props) (b : Behavior) : Prop where
  id : Entries.get? fs "id" = some (.string id)
  typeName : Entries.get? fs "type" = some (.string p.typeName)
  props : Entries.get? fs "props" = some (.object p.toFields)
  behavior : ∀ k ∈ behaviorKeys, Entries.get? fs k = Entries.get? (behaviorFields b) k

theorem get?_headFields (id : String) (p : Props) {k : String}
    (hk : k ≠ "id" ∧ k ≠ "type" ∧ k ≠ "props") : Entries.get? (headFields id p) k = none := by
  simp [headFields, Entries.get?, Ne.symm hk.1, Ne.symm hk.2.1, Ne.symm hk.2.2]

/-- The keys of behavior are none of the other keys of a node. -/
theorem behaviorKeys_ne {k : String} (hk : k ∈ behaviorKeys) :
    (k ≠ "id" ∧ k ≠ "type" ∧ k ≠ "props") ∧ k ≠ "children" := by
  simp only [behaviorKeys, List.mem_cons, List.not_mem_nil, or_false] at hk
  rcases hk with rfl | rfl | rfl | rfl | rfl | rfl | rfl <;> decide

/-- The written fields of a node are read as its id, props and behavior. -/
theorem spells_wireFields (id : String) (p : Props) (list : Option (List Json)) (b : Behavior) :
    Spells (wireFields id p list b) id p b := by
  refine ⟨rfl, rfl, rfl, ?_⟩
  intro k hk
  obtain ⟨hhead, hchildren⟩ := behaviorKeys_ne hk
  rw [wireFields, Entries.get?_append, get?_headFields id p hhead, Option.none_or, Entries.get?_append,
    Json.get?_toList_map, if_neg (Ne.symm hchildren), Option.none_or]

/-- The children are looked up like every other field. -/
theorem childrenField?_eq (fs : Json.Fields) :
    childrenField? fs = match Entries.get? fs "children" with
      | none => some none
      | some v => childrenOf? v := by
  induction fs with
  | nil => rfl
  | cons e r ih =>
    obtain ⟨k, v⟩ := e
    rw [childrenField?, Entries.get?]
    split
    · rfl
    · exact ih

theorem get?_behaviorFields_children (b : Behavior) :
    Entries.get? (behaviorFields b) "children" = none := by
  simp [behaviorFields, Entries.get?_append, Json.get?_setField, Json.get?_toList_map,
    get?_actionField]

theorem get?_wireFields_children (id : String) (p : Props) (list : Option (List Json))
    (b : Behavior) : Entries.get? (wireFields id p list b) "children" = list.map .array := by
  rw [wireFields, Entries.get?_append, get?_headFields id p (by decide), Option.none_or,
    Entries.get?_append, Json.get?_toList_map, get?_behaviorFields_children, Option.or_none, if_pos rfl]

/-- A written list is read, and one that is not written is missing. -/
theorem childrenField?_wireFields (id : String) (p : Props) (list : Option (List Json))
    (b : Behavior) :
    childrenField? (wireFields id p list b) = match list with
      | none => some none
      | some vs => (ofJsonAll? vs).map some := by
  rw [childrenField?_eq, get?_wireFields_children]
  cases list <;> rfl

/-- **Fields that spell a node make that node**, but for the fit of its children. -/
theorem assemble?_of_spells {fs : Json.Fields} {id : String} {p : Props} {b : Behavior}
    (h : Spells fs id p b) (hp : p.Stable) (hb : b.Stable) (children : Option (List Node)) :
    assemble? fs children = some ⟨id, p, fitChildren p children, b⟩ := by
  simp only [assemble?, Json.requiredString?, propsField?, h.id, h.typeName, h.props,
    behavior?_of_lookup hb h.behavior]
  show some (⟨id, Props.recover p.typeName p.toFields, _, b⟩ : Node) = _
  rw [Props.recover_toFields hp]

/-! ## The round trip -/

theorem ofJsonAll?_toJsonAll_iff {cs : List Node} :
    ofJsonAll? (toJsonAll cs) = some cs ↔ ∀ c ∈ cs, c.WireStable := by
  induction cs with
  | nil => exact ⟨fun _ c hc => absurd hc List.not_mem_nil, fun _ => rfl⟩
  | cons c cs ih =>
    rw [List.forall_mem_cons, ← ih, toJsonAll, ofJsonAll?]
    constructor
    · intro h
      -- a list reads when its first tree does, and the others
      split at h
      · next m ms hm hms =>
        obtain ⟨rfl, rfl⟩ := List.cons.inj (Option.some.inj h)
        exact ⟨hm, hms⟩
      · cases h
    · rintro ⟨hc, hcs⟩
      rw [hcs, hc]

/-- The children that are read back of a node. -/
theorem childrenField?_toJson {cs : Option (List Node)} {id : String} {p : Props} {b : Behavior}
    (h : ∀ c ∈ cs.getD [], c.WireStable) :
    childrenField? (wireFields id p (cs.map toJsonAll) b) = some cs := by
  rw [childrenField?_wireFields]
  cases cs with
  | none => rfl
  | some cs => exact congrArg (Option.map some) (ofJsonAll?_toJsonAll_iff.2 h)

/-- A stable tree comes back from the wire. -/
theorem wireStable_of_stable : ∀ n : Node, n.Stable → n.WireStable := by
  refine induct fun n ih h => ?_
  obtain ⟨hshell, hbelow⟩ := stable_iff.1 h
  have hchildren :
      childrenField? (wireFields n.id n.props (n.children.map toJsonAll) n.behavior)
        = some n.children := childrenField?_toJson fun c hc => ih c hc (hbelow c hc)
  -- the kind asks for no other list than the node has
  have hfit : fitChildren n.props n.children = n.children := fitChildren_eq_self hshell.list
  have hspells := spells_wireFields n.id n.props (n.children.map toJsonAll) n.behavior
  unfold WireStable
  rw [toJson_eq, ofJson?, hchildren]
  dsimp only
  rw [assemble?_of_spells hspells hshell.props hshell.behavior, hfit]
  cases n
  rfl

/-- What fits of a list that is there is that list. -/
theorem eq_of_fitChildren {p : Props} {cs ds : List Node}
    (h : fitChildren p (some ds) = some cs) : ds = cs := by
  cases p with
  | unknown t fs => exact Option.some.inj h
  | known k s =>
    unfold fitChildren at h
    dsimp only at h
    split at h
    · exact Option.some.inj h
    · cases h

/-- A tree that comes back from the wire is stable. -/
theorem stable_of_wireStable : ∀ n : Node, n.WireStable → n.Stable := by
  refine induct fun n ih h => ?_
  have hspells := spells_wireFields n.id n.props (n.children.map toJsonAll) n.behavior
  unfold WireStable at h
  rw [toJson_eq, ofJson?, childrenField?_wireFields] at h
  split at h
  · next children hchildren =>
    simp only [assemble?, Json.requiredString?, propsField?, hspells.id, hspells.typeName,
      hspells.props, Option.bind_eq_bind, Option.bind_some, Option.bind_eq_some_iff,
      Json.string?, Json.fields?] at h
    obtain ⟨b, hb, h⟩ := h
    have hn := Option.some.inj h
    -- what comes back is the node, so it agrees with the node field by field
    have hprops : Props.recover n.props.typeName n.props.toFields = n.props :=
      congrArg Node.props hn
    have hbehavior : b = n.behavior := congrArg Node.behavior hn
    have hlist : fitChildren n.props children = n.children := by
      have := congrArg Node.children hn
      rwa [hprops] at this
    have hstable : n.behavior.Stable := by
      rw [← hbehavior]
      exact stable_of_behavior? hb
    rw [stable_iff]
    refine ⟨⟨Props.stable_of_recover_toFields hprops, hstable, ?_⟩, ?_⟩
    · intro k hk
      show n.children.isSome = k.isContainer
      rw [← hlist]
      exact isSome_fitChildren hk
    · intro c hc
      refine ih c hc ?_
      -- a list of children came back, hence one was written, and it came back as it was
      unfold childList at hc
      cases hcs : n.children with
      | none =>
        rw [hcs] at hc
        cases hc
      | some cs =>
        rw [hcs] at hc hlist hchildren
        obtain ⟨ds, hds, rfl⟩ := Option.map_eq_some_iff.1 hchildren
        rw [eq_of_fitChildren hlist] at hds
        exact ofJsonAll?_toJsonAll_iff.1 hds c hc
  · cases h

/-- **Wire stability, node by node.** -/
theorem wireStable_iff {n : Node} : n.WireStable ↔ n.Stable :=
  ⟨stable_of_wireStable n, wireStable_of_stable n⟩

/-- **The round trip**: a tree that was read from a proper value is written so that it reads back as
it was, and what is read back is written in the same way again. -/
theorem ofJson?_toJson_of_ofJson? {v : Json} {n : Node} (hv : v.isProper = true)
    (h : ofJson? v = some n) :
    ofJson? n.toJson = some n ∧ (ofJson? n.toJson).map toJson = some n.toJson := by
  have hstable : ofJson? n.toJson = some n := wireStable_iff.2 (stable_of_ofJson? v hv h)
  refine ⟨hstable, ?_⟩
  rw [hstable]
  rfl

/-- A page given as an array, over a button with a variant that does not read, a field of its own and
an action that sets `null`, and over a node without a kind whose list of children is empty. -/
def mixedPage : Json :=
  .array [.string "page", .string "Container",
    .object [("className", .string "wide"), ("note", .null)],
    .array [
      .object [("id", .string "go"), ("type", .string "Button"),
        ("props", .object [("label", .string "Go"), ("variant", .string "loud"),
          ("size", .number (.whole 2))]),
        ("bind", .string ""),
        ("onClick", .object [("type", .string "set"), ("value", .null)])],
      .object [("children", .array []), ("type", .string "Carousel"), ("id", .string "slides")]]]

/-- The law on a page that is read from an array. -/
theorem ofJson?_toJson_mixedPage :
    mixedPage.isProper = true ∧ ∃ n, ofJson? mixedPage = some n ∧
      ofJson? n.toJson = some n ∧ (ofJson? n.toJson).map toJson = some n.toJson := by
  have hproper : mixedPage.isProper = true := by decide
  exact ⟨hproper, _, rfl, ofJson?_toJson_of_ofJson? hproper rfl⟩

end PageBuilder.Node
