/-
  Where the nodes of an edited tree come from.

  Program:        `Origin` — a node was there before, or arrived, or is the one that was changed.
  Specification:  `Effect.origin` — every node of an edited tree has an origin.
  Crux:           an edit replaces the subtree at one place, and of that subtree all but the root stays
                  or arrives; so a property of single nodes is kept by every edit as soon as it is kept
                  by a merge of props and by a patch of behavior.
-/
import PageBuilder.Proofs.Intent.Outcome

namespace PageBuilder.Intent

/-- **The origin of a node** of an edited tree: what is under it aside, it was there before, or it came
with what was inserted, or it is the node that was changed. -/
inductive Origin (registry : Registry) (supply : Node.Supply) (tree : Node) :
    Intent → Node.Shell → Prop
  | kept {i : Intent} {s : Node.Shell} (mem : s ∈ tree.shells) : Origin registry supply tree i s
  | arrived {i : Intent} {s : Node.Shell} (node : Node) (rest : Node.Supply)
      (subtree : i.subtree? registry supply tree = some (node, rest)) (mem : s ∈ node.shells) :
      Origin registry supply tree i s
  | merged (id : String) (partials : Json.Fields) (old : Node.Shell) (props : Props)
      (mem : old ∈ tree.shells) (merged : old.props.merged? partials = .ok props) :
      Origin registry supply tree (.setProps id partials) { old with props := props }
  | patched (id : String) (patch : Behavior.Patch) (old : Node.Shell) (mem : old ∈ tree.shells) :
      Origin registry supply tree (.setBehavior id patch)
        { old with behavior := patch.apply old.behavior }

variable {registry : Registry} {supply : Node.Supply} {tree result : Node} {i : Intent}

/-- Another node at a place: its own shell has an origin, and so has what is under it. -/
theorem origin_of_plug {p : Node.Place} {n m : Node} {s : Node.Shell}
    (before : tree = p.plug n) (after : result = p.plug m)
    (hroot : Origin registry supply tree i m.shell)
    (hbelow : ∀ c ∈ m.childList, ∀ s ∈ c.shells, s ∉ n.shells → Origin registry supply tree i s)
    (hs : s ∈ result.shells) : Origin registry supply tree i s := by
  -- what stood under the place before counts as kept, wherever it stands now
  by_cases hn : s ∈ n.shells
  · refine .kept ?_
    rw [before]
    exact Node.mem_shells_plug_of_mem hn
  · rw [after] at hs
    -- off the place nothing is new
    rcases Node.mem_shells_plug hs n with hs | hs
    · rw [← before] at hs
      exact .kept hs
    · rw [Node.shells_cons] at hs
      rcases List.mem_cons.1 hs with rfl | hs
      · exact hroot
      · obtain ⟨c, hc, hs⟩ := List.mem_flatMap.1 hs
        exact hbelow c hc s hs hn

/-- **Every node of an edited tree** has an origin. -/
theorem Effect.origin {s : Node.Shell} (h : Effect registry supply tree result i)
    (hs : s ∈ result.shells) : Origin registry supply tree i s := by
  -- what is under the changed node is under the old one too
  have hold : ∀ {p : Node.Place} {n : Node}, tree = p.plug n → n.shell ∈ tree.shells := by
    intro p n before
    rw [before]
    refine Node.mem_shells_plug_of_mem ?_
    rw [Node.shells_cons]
    exact List.mem_cons_self
  have hunder : ∀ (n : Node) {c : Node} {s : Node.Shell}, c ∈ n.childList → s ∈ c.shells →
      s ∈ n.shells := by
    intro n c s hc hs
    rw [Node.shells_cons]
    exact List.mem_cons_of_mem _ (List.mem_flatMap.2 ⟨c, hc, hs⟩)
  cases h with
  | inserted p n node rest subtree fresh found container before after =>
    have hshell : ({ n with children := some (n.childList ++ [node]) } : Node).shell = n.shell := by
      have hlist : n.children.isSome = true := (Bool.and_eq_true_iff.1 container).2
      unfold Node.shell
      rw [hlist]
      rfl
    refine origin_of_plug before after ?_ (fun c hc s hs hn => ?_) hs
    · rw [hshell]
      exact .kept (hold before)
    · rcases List.mem_append.1 hc with hc | hc
      · exact absurd (hunder n hc hs) hn
      · rw [List.mem_singleton.1 hc] at hs
        exact .arrived node rest subtree hs
  | propsSet id partials p n props found merged differs before after =>
    refine origin_of_plug before after ?_ (fun c hc s hs hn => absurd (hunder n hc hs) hn) hs
    exact .merged id partials n.shell props (hold before) merged
  | behaviorSet id patch p n found differs before after =>
    refine origin_of_plug before after ?_ (fun c hc s hs hn => absurd (hunder n hc hs) hn) hs
    exact .patched id patch n.shell (hold before)
  | deleted id l p n found before after =>
    rw [after, Node.shells_fill, List.flatMap_nil, List.nil_append] at hs
    refine .kept ?_
    rw [before, Node.shells_fill]
    rcases List.mem_append.1 hs with hs | hs
    · exact List.mem_append_left _ hs
    · exact List.mem_append_right _ (List.mem_append_right _ hs)

end PageBuilder.Intent
