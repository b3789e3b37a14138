/-
  The ids of a tree over a run of intents.

  Generated ids never meet an id of the tree, and an intent that inserts a node as it was given is
  refused when the node shares an id with the tree.  Nothing compares the ids WITHIN a given node: a
  run keeps the ids of its trees apart exactly as long as every node it is given does.

  Programs:       `trace` — the steps of a run, each with the tree it is applied to; `states` — the
                  trees of a run; `givens` — the nodes that were inserted as given.
  Specification:  `nodup_states_iff` — the ids of every tree of a run are distinct if and only if
                  those of every given node are.
  Crux:           `Effect.nodup_iff` — an insertion gives the ids of the tree and those of the
                  subtree, up to order, and no other edit adds an id.
-/
import PageBuilder.Proofs.Intent.Outcome
import PageBuilder.Proofs.Node.Copy
import PageBuilder.Template.Builtin

namespace PageBuilder.Intent

/-! ## Runs -/

/-- A step of a run: an intent, and the generated ids that there are for it. -/
structure Step where
  intent : Intent
  supply : Node.Supply

/-- **The tree after a step**; a refused intent leaves the tree as it was. -/
def Step.result (registry : Registry) (tree : Node) (s : Step) : Node :=
  match apply registry s.supply tree s.intent with
  | .ok a => a.tree
  | .error _ => tree

/-- The node that an intent inserts as it is. -/
def given? : Intent → Option Node
  | .insert _ node => some node
  | _ => none

/-- The node that a step inserts as it is, if the step is accepted. -/
def Step.given? (registry : Registry) (tree : Node) (s : Step) : Option Node :=
  match apply registry s.supply tree s.intent with
  | .ok _ => s.intent.given?
  | .error _ => none

/-- **The trace** of a run: its steps, each with the tree that it is applied to. -/
def trace (registry : Registry) : Node → List Step → List (Node × Step)
  | _, [] => []
  | tree, s :: run => (tree, s) :: trace registry (s.result registry tree) run

/-- **The trees of a run**, the first one included. -/
def states (registry : Registry) (tree : Node) (run : List Step) : List Node :=
  tree :: (trace registry tree run).map fun v => v.2.result registry v.1

/-- The nodes that a run inserts as they are. -/
def givens (registry : Registry) (tree : Node) (run : List Step) : List Node :=
  (trace registry tree run).filterMap fun v => v.2.given? registry v.1

/-- A trace has the steps of its run, in order. -/
theorem map_snd_trace (registry : Registry) (tree : Node) (run : List Step) :
    (trace registry tree run).map (·.2) = run := by
  induction run generalizing tree with
  | nil => rfl
  | cons s run ih => exact congrArg _ (ih _)

/-- **What holds of every tree of a run**, where a step keeps it under a condition and under no other. -/
theorem forall_states_iff {registry : Registry} {tree : Node} {P : Node → Prop}
    {C : Node → Step → Prop} (hstep : ∀ tree s, P tree → (P (s.result registry tree) ↔ C tree s))
    (run : List Step) (htree : P tree) :
    (∀ t ∈ states registry tree run, P t) ↔ ∀ v ∈ trace registry tree run, C v.1 v.2 := by
  unfold states
  rw [List.forall_mem_cons, and_iff_right htree, List.forall_mem_map]
  induction run generalizing tree with
  | nil => exact iff_of_true (List.forall_mem_nil _) (List.forall_mem_nil _)
  | cons s run ih =>
    rw [trace, List.forall_mem_cons, List.forall_mem_cons, hstep tree s htree]
    -- the rest of the run starts with the result of the step
    exact and_congr_right fun hs => ih ((hstep tree s htree).2 hs)

/-! ## The ids after an edit -/

variable {registry : Registry} {supply : Node.Supply} {tree : Node} {i : Intent}

/-- What is inserted has distinct ids, unless it was given. -/
theorem nodup_of_subtree? {node : Node} {rest : Node.Supply}
    (h : i.subtree? registry supply tree = some (node, rest)) :
    i.given? = some node ∨ (i.given? = none ∧ node.ids.Nodup) := by
  rcases subtree?_cases h with ⟨_, kind, id, rfl, rfl⟩ | ⟨_, rfl⟩ | ⟨_, _, t, rfl, -, hcopy⟩
  · refine Or.inr ⟨rfl, ?_⟩
    rw [Node.ids_cons, Node.childList_make]
    exact List.pairwise_singleton _ _
  · exact Or.inl rfl
  · exact Or.inr ⟨rfl, (Node.freshCopy?_spec hcopy).1⟩

/-- **One edit**: the ids stay distinct if and only if those of a given node are. -/
theorem Effect.nodup_iff {result : Node} (h : Effect registry supply tree result i)
    (htree : tree.ids.Nodup) : result.ids.Nodup ↔ ∀ n, i.given? = some n → n.ids.Nodup := by
  cases h with
  | inserted p n node rest subtree fresh found container before after =>
    have hperm : result.ids.Perm (tree.ids ++ node.ids) := by
      rw [after, before]
      exact Node.ids_plug_append p n node
    -- no id is both in the tree and in the subtree, so only those within the subtree can repeat
    have hnodup : result.ids.Nodup ↔ node.ids.Nodup := by
      rw [hperm.nodup_iff, List.nodup_append]
      constructor
      · rintro ⟨-, hnode, -⟩
        exact hnode
      · intro hnode
        refine ⟨htree, hnode, ?_⟩
        rintro x hx y hy rfl
        exact fresh x hy hx
    rw [hnodup]
    rcases nodup_of_subtree? subtree with hgiven | ⟨hgiven, hnode⟩
    · rw [hgiven]
      constructor
      · rintro h n ⟨⟩
        exact h
      · intro h
        exact h node rfl
    · rw [hgiven]
      exact ⟨fun _ => nofun, fun _ => hnode⟩
  | propsSet id partials p n props found merged differs before after =>
    have hids : result.ids = tree.ids := by
      rw [after, before]
      exact Node.ids_plug_congr p rfl rfl
    rw [hids]
    exact ⟨fun _ => nofun, fun _ => htree⟩
  | behaviorSet id patch p n found differs before after =>
    have hids : result.ids = tree.ids := by
      rw [after, before]
      exact Node.ids_plug_congr p rfl rfl
    rw [hids]
    exact ⟨fun _ => nofun, fun _ => htree⟩
  | deleted id l p n found before after =>
    have hsub : result.ids.Sublist tree.ids := by
      rw [after, before]
      exact Node.ids_fill_sublist l p n
    exact ⟨fun _ => nofun, fun _ => htree.sublist hsub⟩

/-- **One step** of a run. -/
theorem nodup_result_iff {s : Step} (htree : tree.ids.Nodup) :
    (s.result registry tree).ids.Nodup ↔ ∀ n, s.given? registry tree = some n → n.ids.Nodup := by
  unfold Step.result Step.given?
  cases outcome registry s.supply tree s.intent with
  | refused e reason edit result =>
    rw [result]
    exact ⟨fun _ => nofun, fun _ => htree⟩
  | accepted a reason edit result inserted effect =>
    rw [result]
    exact effect.nodup_iff htree

/-- **A whole run**: from a tree with distinct ids, whatever the intents and the generated ids, the
ids of every tree of the run are distinct if and only if those of every given node are. -/
theorem nodup_states_iff (registry : Registry) (run : List Step) (htree : tree.ids.Nodup) :
    (∀ t ∈ states registry tree run, t.ids.Nodup) ↔
      ∀ n ∈ givens registry tree run, n.ids.Nodup := by
  have hstates : (∀ t ∈ states registry tree run, t.ids.Nodup) ↔
      ∀ v ∈ trace registry tree run, ∀ n, v.2.given? registry v.1 = some n → n.ids.Nodup :=
    forall_states_iff (P := fun t => t.ids.Nodup) (fun _ _ h => nodup_result_iff h) run htree
  rw [hstates]
  constructor
  · intro h n hn
    obtain ⟨v, hv, hgiven⟩ := List.mem_filterMap.1 hn
    exact h v hv n hgiven
  · intro h v hv n hgiven
    exact h n (List.mem_filterMap.2 ⟨v, hv, hgiven⟩)

/-- A page with nothing on it. -/
def emptyPage : Node := .make "root" (.blank (some .container))

/-- A node over a node with its own id. -/
def twins : Node :=
  ⟨"a", .blank (some .container), some [.make "a" (.blank (some .text))], {}⟩

/-- A run that generates ids for a copy and for a node, and is given one node twice. -/
theorem nodup_states_mixed :
    emptyPage.ids.Nodup ∧ ∀ t ∈ states Builtin.registry emptyPage
      [⟨.addTemplate "root" "tpl_form", ["1", "2", "2", "3", "4", "5"]⟩,
        ⟨.insert "root" (.make "a" (.blank (some .text))), []⟩,
        ⟨.insert "card_1" (.make "a" (.blank (some .text))), []⟩,
        ⟨.addNode "card_1" (some .card), ["7"]⟩,
        ⟨.delete "card_1", []⟩], t.ids.Nodup := by
  have hpage : emptyPage.ids.Nodup := by decide +kernel
  refine ⟨hpage, ?_⟩
  rw [nodup_states_iff Builtin.registry _ hpage]
  decide +kernel

/-- **A given node can break the ids**: `twins` is inserted, and its id is there twice. -/
theorem not_nodup_states_twins :
    emptyPage.ids.Nodup ∧
      ¬ ∀ t ∈ states [] emptyPage [⟨.insert "root" twins, []⟩], t.ids.Nodup := by
  decide +kernel

end PageBuilder.Intent
