/-
  The root and the reserved id over a run of intents.

  A deletion is refused for the id of the root and for the reserved id.  Nothing asks whether a node of
  the reserved id is UNDER the node that is deleted: in a tree whose root has another id, the reserved
  one goes with any node above it.

  Program:        `Step.removed?` — the subtree that a step takes out.
  Specification:  `reserved_states_iff` — the root keeps its id in every run; the reserved id occurs in
                  every tree of a run if and only if no step takes all the nodes that have it.
  Crux:           `Effect.rootId_mem_iff` — an intent takes ids away by deletion only, and then just
                  those of one subtree, so it is enough to count.
-/
import PageBuilder.Proofs.Intent.Identity

namespace PageBuilder.Intent

open Node (rootId)

variable {registry : Registry} {supply : Node.Supply} {tree : Node} {i : Intent} {s : Step}

/-! ## What a step takes out -/

/-- The subtree that an intent takes out of a tree, if it is accepted. -/
def removed? (tree : Node) : Intent → Option Node
  | .delete id => tree.find? id
  | _ => none

/-- The subtree that a step takes out. -/
def Step.removed? (registry : Registry) (tree : Node) (s : Step) : Option Node :=
  match apply registry s.supply tree s.intent with
  | .ok _ => s.intent.removed? tree
  | .error _ => none

/-- **A step that spares the reserved id**: what it takes out, if anything, does not hold all the nodes
that have it. -/
def Step.Spares (registry : Registry) (tree : Node) (s : Step) : Prop :=
  ∀ n ∈ s.removed? registry tree, n.ids.count rootId < tree.ids.count rootId

instance : Decidable (s.Spares registry tree) :=
  inferInstanceAs (Decidable (∀ n ∈ s.removed? registry tree, _ < _))

/-- An insertion takes nothing out. -/
theorem removed?_of_subtree? {sub : Node × Node.Supply}
    (h : i.subtree? registry supply tree = some sub) : i.removed? tree = none := by
  cases i with
  | delete id => nomatch h
  | addNode | insert | addTemplate | setProps | setBehavior => rfl

/-- **The root keeps its id.** -/
theorem Effect.id_eq {result : Node} (h : Effect registry supply tree result i) :
    result.id = tree.id := by
  cases h with
  | inserted p n node rest subtree fresh found container before after =>
    rw [before, after]
    exact Node.Place.id_plug_congr p rfl
  | propsSet id partials p n props found merged differs before after =>
    rw [before, after]
    exact Node.Place.id_plug_congr p rfl
  | behaviorSet id patch p n found differs before after =>
    rw [before, after]
    exact Node.Place.id_plug_congr p rfl
  | deleted id l p n found before after =>
    rw [before, after, Node.Place.id_fill, Node.Place.id_fill]

/-- **One edit**: the reserved id stays unless all the nodes that have it are taken out. -/
theorem Effect.rootId_mem_iff {result : Node} (h : Effect registry supply tree result i)
    (htree : rootId ∈ tree.ids) : rootId ∈ result.ids ↔
      ∀ n ∈ i.removed? tree, n.ids.count rootId < tree.ids.count rootId := by
  -- only a deletion takes ids out
  cases h with
  | inserted p n node rest subtree fresh found container before after =>
    have hmem : rootId ∈ result.ids := by
      rw [after, (Node.ids_plug_append p n node).mem_iff, ← before]
      exact List.mem_append_left _ htree
    rw [removed?_of_subtree? subtree]
    simp [hmem]
  | propsSet id partials p n props found merged differs before after =>
    have hids : result.ids = tree.ids := by
      rw [after, before]
      exact Node.ids_plug_congr p rfl rfl
    simp [removed?, hids, htree]
  | behaviorSet id patch p n found differs before after =>
    have hids : result.ids = tree.ids := by
      rw [after, before]
      exact Node.ids_plug_congr p rfl rfl
    simp [removed?, hids, htree]
  | deleted id l p n found before after =>
    have hcount : tree.ids.count rootId = result.ids.count rootId + n.ids.count rootId := by
      rw [before, after, Node.ids_fill, Node.ids_fill, List.flatMap_singleton, List.flatMap_nil,
        List.nil_append, List.count_append, List.count_append, List.count_append]
      omega
    rw [removed?, found, ← List.count_pos_iff]
    simp [hcount]

/-- A step leaves the root its id. -/
theorem id_result (registry : Registry) (tree : Node) (s : Step) :
    (s.result registry tree).id = tree.id := by
  unfold Step.result
  cases outcome registry s.supply tree s.intent with
  | refused e reason edit result => rw [result]
  | accepted a reason edit result inserted effect =>
    rw [result]
    exact effect.id_eq

/-- **One step** of a run. -/
theorem rootId_mem_result_iff (htree : rootId ∈ tree.ids) :
    rootId ∈ (s.result registry tree).ids ↔ s.Spares registry tree := by
  unfold Step.Spares Step.result Step.removed?
  cases outcome registry s.supply tree s.intent with
  | refused e reason edit result =>
    rw [result]
    simp [htree]
  | accepted a reason edit result inserted effect =>
    rw [result]
    exact effect.rootId_mem_iff htree

/-- **A whole run**: whatever the intents, the root keeps its id in every tree of the run; the reserved
id, if it is there at the start, occurs in all of them if and only if every step spares it. -/
theorem reserved_states_iff (registry : Registry) (run : List Step) (htree : rootId ∈ tree.ids) :
    (∀ t ∈ states registry tree run, t.id = tree.id) ∧
      ((∀ t ∈ states registry tree run, rootId ∈ t.ids) ↔
        ∀ v ∈ trace registry tree run, v.2.Spares registry v.1) := by
  have hroot : ∀ (t : Node) (s : Step), t.id = tree.id →
      ((s.result registry t).id = tree.id ↔ True) := by
    intro t s ht
    rw [id_result, ht]
    exact iff_of_true rfl trivial
  refine ⟨?_, forall_states_iff (fun _ _ h => rootId_mem_result_iff h) run htree⟩
  exact (forall_states_iff (P := fun t => t.id = tree.id) hroot run rfl).2 fun _ _ => trivial

/-- A page with a frame, and in it a node of the reserved id. -/
def framedPage : Node :=
  ⟨"page", .blank (some .container),
    some [⟨"frame", .blank (some .container), some [.make rootId (.blank (some .container))], {}⟩,
      .make "note" (.blank (some .text))], {}⟩

/-- Of the deletions of this run, those of the root and of the reserved id are refused, and the other
one spares the frame. -/
theorem reserved_states_framedPage :
    rootId ∈ framedPage.ids ∧ ∀ t ∈ states Builtin.registry framedPage
      [⟨.addTemplate rootId "tpl_form", ["1", "2", "3", "4", "5"]⟩, ⟨.delete rootId, []⟩,
        ⟨.delete "page", []⟩, ⟨.delete "note", []⟩], t.id = "page" ∧ rootId ∈ t.ids := by
  have hpage : rootId ∈ framedPage.ids := by decide +kernel
  obtain ⟨hroot, hiff⟩ := reserved_states_iff Builtin.registry
    [⟨.addTemplate rootId "tpl_form", ["1", "2", "3", "4", "5"]⟩, ⟨.delete rootId, []⟩,
      ⟨.delete "page", []⟩, ⟨.delete "note", []⟩] hpage
  have hreserved := hiff.2 (by decide +kernel)
  exact ⟨hpage, fun t ht => ⟨hroot t ht, hreserved t ht⟩⟩

/-- **The reserved id can be lost**: it goes with the frame that it is in. -/
theorem not_reserved_states_framedPage :
    rootId ∈ framedPage.ids ∧
      ¬ ∀ t ∈ states [] framedPage [⟨.delete "frame", []⟩], rootId ∈ t.ids := by
  decide +kernel

end PageBuilder.Intent
