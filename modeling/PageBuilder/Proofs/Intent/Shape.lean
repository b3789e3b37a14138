/-
  The shape of a tree over a run of intents.

  An edit writes a list of children wherever it passes, so that the shape of a tree depends on where
  it passes: through nodes that have a list, and down to a container.

  Programs:       `final` — the tree that a run ends with; `arrivals` — what its steps inserted.
  Specification:  `shaped_final` — a run over what is built ends with a shaped tree, and each node of
                  it without a kind is what is left of a node of its own that came with the first tree
                  or arrived on the way.
  Crux:           `Effect.mem_shells` — the nodes of an edited tree agree in kind and list with nodes
                  of the tree before, or arrived with the edit.
-/
import PageBuilder.Proofs.Intent.Identity
import PageBuilder.Proofs.Intent.Origin
import PageBuilder.Proofs.Node.Remnant
import PageBuilder.Proofs.Node.Shape
import PageBuilder.Proofs.Props.Stable

namespace PageBuilder.Intent

/-! ## Runs -/

/-- What a step inserts, if it is accepted. -/
def Step.arrival? (registry : Registry) (tree : Node) (s : Step) : Option Node :=
  match apply registry s.supply tree s.intent with
  | .ok _ => (s.intent.subtree? registry s.supply tree).map (·.1)
  | .error _ => none

/-- **The tree that a run ends with**. -/
def final (registry : Registry) (tree : Node) (run : List Step) : Node :=
  run.foldl (Step.result registry) tree

/-- **What a run inserts**, step by step. -/
def arrivals (registry : Registry) (tree : Node) (run : List Step) : List Node :=
  (trace registry tree run).filterMap fun v => v.2.arrival? registry v.1

/-- How a subtree that arrives came about: it was given, it is a new component, or it is the copy of a
template, its ids aside. -/
def Arrival (registry : Registry) (given : Option Node) (n : Node) : Prop :=
  given = some n ∨ (∃ id kind, n = .make id (.palette kind)) ∨
    ∃ t ∈ registry.templates, n.bodies = t.schema.bodies

variable {registry : Registry} {supply : Node.Supply} {tree result : Node} {i : Intent}

/-- What an intent inserts is given, made, or copied. -/
theorem arrival_of_subtree? {node : Node} {rest : Node.Supply}
    (h : i.subtree? registry supply tree = some (node, rest)) :
    Arrival registry i.given? node := by
  rcases subtree?_cases h with ⟨_, kind, id, -, rfl⟩ | ⟨_, rfl⟩ | ⟨_, _, t, -, ht, hcopy⟩
  · exact Or.inr (Or.inl ⟨id, kind, rfl⟩)
  · exact Or.inl rfl
  · exact Or.inr (Or.inr ⟨t, ht, (Node.freshCopy?_spec hcopy).2.2⟩)

/-! ## The shape after an edit -/

/-- **The nodes of an edited tree**: each has the kind of a node before, and a list just when that one
had, or it arrived. -/
theorem Effect.mem_shells {s : Node.Shell} (h : Effect registry supply tree result i)
    (hs : s ∈ result.shells) :
    (∃ old ∈ tree.shells, s.props.kind? = old.props.kind? ∧ s.hasList = old.hasList) ∨
    ∃ node rest, i.subtree? registry supply tree = some (node, rest) ∧ s ∈ node.shells := by
  cases h.origin hs with
  | kept mem => exact Or.inl ⟨s, mem, rfl, rfl⟩
  | arrived node rest subtree mem => exact Or.inr ⟨node, rest, subtree, mem⟩
  | merged id partials old props mem merged =>
    exact Or.inl ⟨old, mem, Props.kind?_of_merged? merged, rfl⟩
  | patched id patch old mem => exact Or.inl ⟨old, mem, rfl, rfl⟩

/-- What arrives is shaped if what is given is, and the templates are. -/
theorem shaped_of_arrival {given : Option Node} {n : Node}
    (hregistry : ∀ t ∈ registry.templates, t.schema.Shaped)
    (hgiven : ∀ n, given = some n → n.Shaped) (h : Arrival registry given n) : n.Shaped := by
  rcases h with h | ⟨id, kind, rfl⟩ | ⟨t, ht, hbodies⟩
  · exact hgiven n h
  · exact Node.shaped_make id _
  · rw [Node.shaped_iff_shells]
    refine Node.forall_shells_of_bodies (fun s u heq hu => ?_) hbodies
      (Node.shaped_iff_shells.1 (hregistry t ht))
    obtain ⟨hprops, hrest⟩ := Prod.mk.inj heq
    exact hu.congr (congrArg Props.kind? hprops) (Prod.mk.inj hrest).1

/-- **One edit** keeps the shape. -/
theorem Effect.shaped (h : Effect registry supply tree result i)
    (hregistry : ∀ t ∈ registry.templates, t.schema.Shaped)
    (hgiven : ∀ n, i.given? = some n → n.Shaped) (htree : tree.Shaped) : result.Shaped := by
  rw [Node.shaped_iff_shells] at htree ⊢
  intro s hs
  rcases h.mem_shells hs with ⟨old, hold, hkind, hlist⟩ | ⟨node, rest, hsubtree, hs⟩
  · exact (htree old hold).congr hkind hlist
  · have hnode := shaped_of_arrival hregistry hgiven (arrival_of_subtree? hsubtree)
    exact Node.shaped_iff_shells.1 hnode s hs

/-! ## The nodes without a kind -/

/-- **One edit** leaves the nodes without a kind as they were, and adds those that arrive. -/
theorem Effect.leaves (h : Effect registry supply tree result i) :
    Node.Leaves (tree.kindless
        + Node.kindlessAll ((i.subtree? registry supply tree).map (·.1)).toList)
      result.kindless := by
  cases h with
  | inserted p n node rest subtree fresh found container before after =>
    -- a node with a kind gets the child, so no node without one does
    have hkind : ∃ k, n.kind? = some k := by
      have hprops : n.props.isContainer = true := (Bool.and_eq_true_iff.1 container).1
      unfold Props.isContainer at hprops
      cases hk : n.props.kind? with
      | none =>
        rw [hk] at hprops
        nomatch hprops
      | some k => exact ⟨k, hk⟩
    obtain ⟨k, hk⟩ := hkind
    have hmore : ({ n with children := some (n.childList ++ [node]) } : Node).kindless
        = n.kindless + node.kindless := by
      have hown : ({ n with children := some (n.childList ++ [node]) } : Node).own = n.own := by
        rw [Node.own_of_kind? hk]
        exact Node.own_of_kind? hk
      rw [Node.kindless_eq, Node.kindless_eq n, hown, add_assoc]
      show _ + Node.kindlessAll (n.childList ++ [node]) = _
      rw [Node.kindlessAll_append, Node.kindlessAll_singleton]
    rw [subtree, before, after]
    refine Node.leaves_plug p ?_ rfl
    rw [hmore]
    exact .refl _
  | propsSet id partials p n props found merged differs before after =>
    have hnode : n.Remnant { n with props := props } :=
      ⟨rfl, Props.typeName_of_merged? merged, rfl, List.Sublist.refl _⟩
    have hleaves : Node.Leaves n.kindless ({ n with props := props } : Node).kindless :=
      Node.leaves_of_remnant (Props.kind?_of_merged? merged) hnode rfl
    rw [before, after]
    exact Node.leaves_plug p ((Node.Leaves.of_le (Multiset.le_add_right _ _)).trans hleaves) rfl
  | behaviorSet id patch p n found differs before after =>
    have hnode : n.Remnant { n with behavior := patch.apply n.behavior } :=
      ⟨rfl, rfl, rfl, List.Sublist.refl _⟩
    have hleaves : Node.Leaves n.kindless
        ({ n with behavior := patch.apply n.behavior } : Node).kindless :=
      Node.leaves_of_remnant rfl hnode rfl
    rw [before, after]
    exact Node.leaves_plug p ((Node.Leaves.of_le (Multiset.le_add_right _ _)).trans hleaves) rfl
  | deleted id l p n found before after =>
    rw [before, after]
    refine Node.leaves_fill l p ?_ (List.nil_sublist _)
    exact .of_le (Multiset.zero_le _)

/-! ## Steps and runs -/

/-- **One step** of a run. -/
theorem shaped_result {s : Step} (hregistry : ∀ t ∈ registry.templates, t.schema.Shaped)
    (hgiven : ∀ n, s.intent.given? = some n → n.Shaped) (htree : tree.Shaped) :
    (s.result registry tree).Shaped := by
  unfold Step.result
  cases outcome registry s.supply tree s.intent with
  | refused e reason edit result =>
    rw [result]
    exact htree
  | accepted a reason edit result inserted effect =>
    rw [result]
    exact effect.shaped hregistry hgiven htree

/-- **One step**: every node without a kind is left of one that was there, or of one that arrived.
-/
theorem leaves_result {s : Step} :
    Node.Leaves (tree.kindless + Node.kindlessAll (s.arrival? registry tree).toList)
      (s.result registry tree).kindless := by
  unfold Step.result Step.arrival?
  cases outcome registry s.supply tree s.intent with
  | refused e reason edit result =>
    rw [result]
    exact .of_le (Multiset.le_add_right _ _)
  | accepted a reason edit result inserted effect =>
    rw [result]
    exact effect.leaves

/-- What a step inserts is given, made, or copied. -/
theorem arrival_of_step {s : Step} {n : Node} (h : s.arrival? registry tree = some n) :
    Arrival registry s.intent.given? n := by
  unfold Step.arrival? at h
  split at h
  · obtain ⟨⟨node, rest⟩, hsubtree, rfl⟩ := Option.map_eq_some_iff.1 h
    exact arrival_of_subtree? hsubtree
  · cases h

/-- Steps keep the shape, hence so does a run. -/
theorem shaped_foldl {run : List Step} (hregistry : ∀ t ∈ registry.templates, t.schema.Shaped)
    (hrun : ∀ s ∈ run, ∀ n, s.intent.given? = some n → n.Shaped) (htree : tree.Shaped) :
    (final registry tree run).Shaped := by
  induction run generalizing tree with
  | nil => exact htree
  | cons s run ih =>
    obtain ⟨hs, hrun⟩ := List.forall_mem_cons.1 hrun
    exact ih hrun (shaped_result hregistry hs htree)

/-- What a run inserts, the first step aside. -/
theorem arrivals_cons (s : Step) (run : List Step) : arrivals registry tree (s :: run)
    = (s.arrival? registry tree).toList ++ arrivals registry (s.result registry tree) run := by
  unfold arrivals
  rw [trace, List.filterMap_cons]
  cases s.arrival? registry tree <;> rfl

/-- Step by step, the nodes without a kind are what is left of those before and of the arrivals. -/
theorem leaves_final (run : List Step) :
    Node.Leaves (tree.kindless + Node.kindlessAll (arrivals registry tree run))
      (final registry tree run).kindless := by
  induction run generalizing tree with
  | nil => exact .of_le (Multiset.le_add_right _ _)
  | cons s run ih =>
    have hstep : Node.Leaves (tree.kindless + Node.kindlessAll (s.arrival? registry tree).toList)
        (s.result registry tree).kindless := leaves_result
    rw [arrivals_cons, Node.kindlessAll_append, ← add_assoc]
    exact (hstep.add (.refl _)).trans ih

/-- Whatever a run inserts was inserted by one of its steps. -/
theorem arrival_of_mem_arrivals {run : List Step} {n : Node}
    (h : n ∈ arrivals registry tree run) :
    ∃ s ∈ run, Arrival registry s.intent.given? n := by
  obtain ⟨v, hv, harrival⟩ := List.mem_filterMap.1 h
  refine ⟨v.2, ?_, arrival_of_step harrival⟩
  rw [← map_snd_trace registry tree run]
  exact List.mem_map_of_mem hv

/-- **A whole run**: it starts from a tree that was built, with templates and given nodes that were.
It ends with a tree in which containers and cards have a list of children and other kinds have none;
each node of it without a kind is what is left of one that came with the first tree or arrived, with a
list just when that one had, and with no child that it did not have; and what arrived was given, is new
or is the copy of a template. -/
theorem shaped_final (registry : Registry) (run : List Step) (htree : tree.Built)
    (hregistry : ∀ t ∈ registry.templates, t.schema.Built)
    (hrun : ∀ s ∈ run, ∀ n, s.intent.given? = some n → n.Built) :
    (final registry tree run).Shaped ∧
    Node.Leaves (tree.kindless + Node.kindlessAll (arrivals registry tree run))
      (final registry tree run).kindless ∧
    ∀ n ∈ arrivals registry tree run, ∃ s ∈ run, Arrival registry s.intent.given? n := by
  refine ⟨?_, leaves_final run, fun n hn => arrival_of_mem_arrivals hn⟩
  refine shaped_foldl ?_ ?_ (Node.shaped_of_built htree)
  · intro t ht
    exact Node.shaped_of_built (hregistry t ht)
  · intro s hs n hn
    exact Node.shaped_of_built (hrun s hs n hn)

/-- A page over two nodes without a kind, one with a list of children and one without. -/
def galleryPage : Json :=
  .object [("id", .string "root"), ("type", .string "Container"), ("children", .array [
    .object [("id", .string "slides"), ("type", .string "Carousel"), ("children", .array [
      .object [("id", .string "first"), ("type", .string "Text")]])],
    .object [("id", .string "plot"), ("type", .string "Chart")]])]

/-- Changes in and under nodes without a kind, and a template and a node put beside them. -/
def galleryRun : List Step :=
  [⟨.delete "first", []⟩, ⟨.addTemplate "root" "tpl", ["1", "2", "3", "4"]⟩,
    ⟨.insert "slides" (.make "next" (.blank (some .card))), []⟩,
    ⟨.insert "root" (.make "next" (.blank (some .card))), []⟩,
    ⟨.setProps "plot" [("title", .string "Sales")], []⟩]

/-- The law on a page that carries two nodes without a kind. -/
theorem shaped_final_galleryPage :
    ∃ tree, Node.ofJson? galleryPage = some tree ∧
      (final [("tpl", ⟨"tpl", "Gallery", tree⟩)] tree galleryRun).ids
        = ["root", "slides", "plot", "container_1", "carousel_2", "text_3", "chart_4", "next"] ∧
      (final [("tpl", ⟨"tpl", "Gallery", tree⟩)] tree galleryRun).Shaped := by
  obtain ⟨tree, htree, hids⟩ : ∃ tree, Node.ofJson? galleryPage = some tree ∧
      (final [("tpl", ⟨"tpl", "Gallery", tree⟩)] tree galleryRun).ids
        = ["root", "slides", "plot", "container_1", "carousel_2", "text_3", "chart_4", "next"] :=
    ⟨_, rfl, by decide +kernel⟩
  refine ⟨tree, htree, hids, (shaped_final _ _ (.read htree) ?_ ?_).1⟩
  · intro t ht
    rw [List.mem_singleton.1 ht]
    exact .read htree
  · intro s hs n hn
    simp only [galleryRun, List.mem_cons, List.not_mem_nil, or_false] at hs
    rcases hs with rfl | rfl | rfl | rfl | rfl
    · nomatch hn
    · nomatch hn
    · rw [← Option.some.inj hn]
      exact .made "next" _
    · rw [← Option.some.inj hn]
      exact .made "next" _
    · nomatch hn

end PageBuilder.Intent
