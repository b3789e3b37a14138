/-
  Stable trees under intents.

  A peer is sent the tree that an editor shows, and a project is opened with the tree that was saved;
  both have it from the wire, so both have the tree of the editor as long as that tree is stable.

  Programs:       `FromWire` — what comes with an intent was read from the wire;
                  `setsEmptyName` — an intent gives a node a variable with the empty name.
  Specification:  `wireStable_apply_iff` — an accepted intent keeps a tree stable if and only if it
                  sets no empty name, which the wire reads as none.
  Crux:           `stable_plug_iff` — a tree is stable if its nodes are, one by one, so that only the
                  node that an edit replaces has to be looked at.
-/
import PageBuilder.Proofs.Intent.Outcome
import PageBuilder.Proofs.Node.Copy
import PageBuilder.Proofs.Node.RoundTrip
import PageBuilder.Template.Builtin

namespace PageBuilder

/-! ## Patches -/

namespace Behavior

/-- What a patch does to the action of an event. -/
def Patch.action (p : Patch) : EventSlot → Option (Option Action)
  | .click => p.onClick
  | .hover => p.onHover
  | .blur => p.onBlur

theorem action_apply (p : Patch) (b : Behavior) (slot : EventSlot) :
    (p.apply b).action slot = (p.action slot).getD (b.action slot) := by
  cases slot <;> rfl

/-- **A patch of stable actions** leaves stable behavior, unless it sets an empty name. -/
theorem stable_apply_iff {p : Patch} {b : Behavior} (hb : b.Stable)
    (hp : ∀ slot a, p.action slot = some (some a) → a.isStable = true) :
    (p.apply b).Stable ↔ p.bind ≠ some (some "") ∧ p.visibleIf ≠ some (some "") := by
  -- a name that is not touched is the old one, which is not empty
  have name : ∀ {q : Option (Option String)} {s : Option String}, s ≠ some "" →
      (q.getD s ≠ some "" ↔ q ≠ some (some "")) := by
    intro q s hs
    cases q with
    | none => exact ⟨fun _ => nofun, fun _ => hs⟩
    | some q => exact not_congr ⟨congrArg some, Option.some.inj⟩
  constructor
  · intro h
    exact ⟨(name hb.bind).1 h.bind, (name hb.visibleIf).1 h.visibleIf⟩
  · rintro ⟨hbind, hvisible⟩
    refine ⟨(name hb.bind).2 hbind, (name hb.visibleIf).2 hvisible, fun slot a ha => ?_⟩
    rw [action_apply] at ha
    cases hslot : p.action slot with
    | none =>
      rw [hslot] at ha
      exact hb.action slot a ha
    | some c =>
      rw [hslot] at ha
      have hc : c = some a := ha
      rw [hc] at hslot
      exact hp slot a hslot

end Behavior

/-! ## Stable trees, place by place -/

namespace Node

/-- A tree is stable if what is around a place is, and what is there. -/
theorem stable_plug_iff {p : Place} {n : Node} :
    (p.plug n).Stable ↔ (∀ s ∈ p.before, s.Stable) ∧ n.Stable ∧ ∀ s ∈ p.after, s.Stable := by
  unfold Stable
  rw [shells_plug, List.forall_mem_append, List.forall_mem_append]

/-- In a stable tree, only what is put at a place matters. -/
theorem stable_plug_congr {p : Place} {n : Node} (h : (p.plug n).Stable) (m : Node) :
    (p.plug m).Stable ↔ m.Stable := by
  obtain ⟨hbefore, -, hafter⟩ := stable_plug_iff.1 h
  rw [stable_plug_iff]
  exact ⟨fun hm => hm.2.1, fun hm => ⟨hbefore, hm, hafter⟩⟩

/-- A tree stays stable when a subtree goes. -/
theorem stable_fill_nil {l : Level} {p : Place} {n : Node} (h : (Place.fill l p [n]).Stable) :
    (Place.fill l p []).Stable := by
  unfold Stable at h ⊢
  rw [shells_fill, List.forall_mem_append, List.forall_mem_append] at h
  rw [shells_fill, List.flatMap_nil, List.nil_append, List.forall_mem_append]
  exact ⟨h.1, h.2.2⟩

/-- A container with one more child. -/
theorem stable_append {n child : Node} (hn : n.Stable) (hchild : child.Stable)
    (hcontainer : n.isContainer = true) :
    ({ n with children := some (n.childList ++ [child]) } : Node).Stable := by
  obtain ⟨hshell, hbelow⟩ := stable_iff.1 hn
  have hlist : n.children.isSome = true := (Bool.and_eq_true_iff.1 hcontainer).2
  rw [stable_iff]
  refine ⟨⟨hshell.props, hshell.behavior, fun k hk => ?_⟩, fun c hc => ?_⟩
  · rw [← hshell.list k hk]
    exact hlist.symm
  · rcases List.mem_append.1 hc with hc | hc
    · exact hbelow c hc
    · rw [List.mem_singleton.1 hc]
      exact hchild

/-- A copy of a stable tree is stable. -/
theorem stable_of_bodies {m n : Node} (h : m.bodies = n.bodies) (hn : n.Stable) : m.Stable := by
  refine forall_shells_of_bodies (fun s t heq hstable => ?_) h hn
  obtain ⟨hprops, hrest⟩ := Prod.mk.inj heq
  obtain ⟨hlist, hbehavior⟩ := Prod.mk.inj hrest
  refine ⟨hprops ▸ hstable.props, hbehavior ▸ hstable.behavior, fun k hk => ?_⟩
  rw [hlist]
  exact hstable.list k (hprops ▸ hk)

/-- A new component is stable. -/
theorem stable_make {id : String} {p : Props} (hp : p.Stable) : (make id p).Stable := by
  rw [stable_iff, childList_make]
  exact ⟨⟨hp, Behavior.stable_empty, fun k hk => isSome_children_make id hk⟩, nofun⟩

end Node

/-! ## Stable trees under intents -/

namespace Intent

/-- **What comes with an intent was read from the wire**: a node to insert, props to merge, and the
actions of a patch.  The names of a patch may be anything. -/
def FromWire : Intent → Prop
  | .insert _ node => node.WireStable
  | .setProps _ partials => Json.holdProper partials = true
  | .setBehavior _ patch =>
    ∀ slot a, patch.action slot = some (some a) → ∃ v, Action.ofJson? v = some a
  | _ => True

/-- An intent that gives a node a variable with the empty name. -/
def setsEmptyName : Intent → Bool
  | .setBehavior _ patch => patch.bind == some (some "") || patch.visibleIf == some (some "")
  | _ => false

variable {registry : Registry} {supply : Node.Supply} {tree : Node} {i : Intent}

/-- What an intent inserts is stable. -/
theorem stable_of_subtree? {node : Node} {rest : Node.Supply}
    (hregistry : ∀ t ∈ registry.templates, t.schema.Stable) (hi : i.FromWire)
    (h : i.subtree? registry supply tree = some (node, rest)) : node.Stable := by
  rcases subtree?_cases h with ⟨_, kind, id, -, rfl⟩ | ⟨_, rfl⟩ | ⟨_, _, t, -, ht, hcopy⟩
  · exact Node.stable_make (Props.stable_palette kind)
  · exact Node.wireStable_iff.1 hi
  · exact Node.stable_of_bodies (Node.freshCopy?_spec hcopy).2.2 (hregistry t ht)

theorem setsEmptyName_of_subtree? {node : Node} {rest : Node.Supply}
    (h : i.subtree? registry supply tree = some (node, rest)) : i.setsEmptyName = false := by
  rcases subtree?_cases h with ⟨_, _, _, rfl, -⟩ | ⟨_, rfl⟩ | ⟨_, _, _, rfl, -, -⟩ <;> rfl

/-- A patch sets no empty name when neither of its two names is empty. -/
theorem setsEmptyName_setBehavior {id : String} {patch : Behavior.Patch} :
    (setBehavior id patch).setsEmptyName = false ↔
      patch.bind ≠ some (some "") ∧ patch.visibleIf ≠ some (some "") := by
  simp [setsEmptyName]

/-- **One edit** of a stable tree. -/
theorem Effect.stable_iff {result : Node} (h : Effect registry supply tree result i)
    (hregistry : ∀ t ∈ registry.templates, t.schema.Stable) (hi : i.FromWire)
    (htree : tree.Stable) : result.Stable ↔ i.setsEmptyName = false := by
  cases h with
  | inserted p n node rest subtree fresh found container before after =>
    rw [before] at htree
    obtain ⟨-, hn, -⟩ := Node.stable_plug_iff.1 htree
    have hnode := stable_of_subtree? hregistry hi subtree
    rw [after, Node.stable_plug_congr htree]
    exact iff_of_true (Node.stable_append hn hnode container) (setsEmptyName_of_subtree? subtree)
  | propsSet id partials p n props found merged differs before after =>
    rw [before] at htree
    obtain ⟨-, hn, -⟩ := Node.stable_plug_iff.1 htree
    obtain ⟨hshell, hbelow⟩ := Node.stable_iff.1 hn
    rw [after, Node.stable_plug_congr htree, Node.stable_iff]
    -- the list of children stays and so does the kind, so they still go together
    refine iff_of_true ⟨⟨?_, hshell.behavior, ?_⟩, hbelow⟩ rfl
    · exact Props.stable_of_merged? hshell.props hi merged
    · intro k hk
      exact hshell.list k ((Props.kind?_of_merged? merged).symm.trans hk)
  | behaviorSet id patch p n found differs before after =>
    rw [before] at htree
    obtain ⟨-, hn, -⟩ := Node.stable_plug_iff.1 htree
    obtain ⟨hshell, hbelow⟩ := Node.stable_iff.1 hn
    have hactions : ∀ slot a, patch.action slot = some (some a) → a.isStable = true := by
      intro slot a ha
      obtain ⟨v, hv⟩ := hi slot a ha
      exact Action.isStable_of_ofJson? hv
    rw [after, Node.stable_plug_congr htree, Node.stable_iff, setsEmptyName_setBehavior,
      ← Behavior.stable_apply_iff hshell.behavior hactions]
    constructor
    · rintro ⟨hpatched, -⟩
      exact hpatched.behavior
    · intro hpatched
      exact ⟨⟨hshell.props, hpatched, hshell.list⟩, hbelow⟩
  | deleted id l p n found before after =>
    rw [before] at htree
    rw [after]
    exact iff_of_true (Node.stable_fill_nil htree) rfl

/-- **Intents keep trees stable**, with one exception: from a tree that comes back from the wire, and
templates that do, an accepted intent whose parts were read from the wire makes a tree that comes back
from the wire if and only if it sets no empty name. -/
theorem wireStable_apply_iff {a : Applied} (htree : tree.WireStable)
    (hregistry : ∀ t ∈ registry.templates, t.schema.WireStable) (hi : i.FromWire)
    (h : apply registry supply tree i = .ok a) :
    a.tree.WireStable ↔ i.setsEmptyName = false := by
  rw [Node.wireStable_iff] at htree ⊢
  cases outcome registry supply tree i with
  | refused e reason edit result =>
    rw [result] at h
    nomatch h
  | accepted b reason edit result inserted effect =>
    rw [result] at h
    obtain rfl : b = a := Except.ok.inj h
    exact effect.stable_iff (fun t ht => Node.wireStable_iff.1 (hregistry t ht)) hi htree

/-- A field that is bound to a variable. -/
def boundField : Node := ⟨"field", .blank (some .input), none, { bind := some "name" }⟩

/-- Patches of a field: bound to another variable, with an action as it was read. -/
theorem wireStable_boundField :
    ∃ a, apply Builtin.registry [] boundField
        (.setBehavior "field"
          { bind := some (some "other"), onClick := some (some (.toggle (some "open"))) }) = .ok a ∧
      a.tree.WireStable := by
  have happly : apply Builtin.registry [] boundField
      (.setBehavior "field"
        { bind := some (some "other"), onClick := some (some (.toggle (some "open"))) })
      = .ok ⟨{ boundField with
          behavior := { bind := some "other", onClick := some (.toggle (some "open")) } },
        none, []⟩ := by
    cbv
  refine ⟨_, happly, ?_⟩
  refine (wireStable_apply_iff (by decide) (by decide +kernel) ?_ happly).2 (by decide)
  intro slot a ha
  -- the patch sets one action, which comes back from the wire
  cases slot with
  | click =>
    obtain rfl : .toggle (some "open") = a := Option.some.inj (Option.some.inj ha)
    exact ⟨(Action.toggle (some "open")).toJson, rfl⟩
  | hover => cases ha
  | blur => cases ha

/-- **An empty name is not kept**: it is set, and the wire reads it as none. -/
theorem not_wireStable_boundField :
    boundField.WireStable ∧
      (setBehavior "field" { bind := some (some "") }).FromWire ∧
      ∃ a, apply [] [] boundField (.setBehavior "field" { bind := some (some "") }) = .ok a ∧
        ¬ a.tree.WireStable := by
  have happly : apply [] [] boundField (.setBehavior "field" { bind := some (some "") })
      = .ok ⟨{ boundField with behavior := { bind := some "" } }, none, []⟩ := by
    cbv
  refine ⟨by decide, ?_, _, happly, by decide⟩
  intro slot a ha
  cases slot <;> cases ha

end Intent
end PageBuilder
