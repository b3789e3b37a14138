/-
  Legible trees under intents.

  What is read from a file is legible, and so is what a command brings; so a page that is edited comes
  back from its text, its numbers and its depth aside.

  Program:        `Legible` — what comes with an intent is legible, and no empty name is set.
  Specification:  `legible_apply` — an accepted intent keeps a tree legible;
                  `Builtin.legible_registry` — the built-in templates are.
  Crux:           `Props.isTidy_of_merged?` — a merge writes over the fields that there are, so that no
                  key comes in a second time.
-/
import PageBuilder.Proofs.Intent.Origin
import PageBuilder.Proofs.Intent.Stable
import PageBuilder.Proofs.Node.Tidy
import PageBuilder.Proofs.Props.Merge

namespace PageBuilder

/-! ## Behavior and trees -/

/-- A patch whose actions set tidy values. -/
theorem Behavior.tidy_apply {p : Patch} {b : Behavior} (hb : b.Tidy)
    (hp : ∀ slot a, p.action slot = some (some a) → a.isTidy = true) : (p.apply b).Tidy := by
  intro slot a ha
  rw [action_apply] at ha
  cases hslot : p.action slot with
  | none =>
    rw [hslot] at ha
    exact hb slot a ha
  | some c =>
    rw [hslot] at ha
    have hc : c = some a := ha
    rw [hc] at hslot
    exact hp slot a hslot

namespace Node

theorem tidy_make {id : String} {p : Props} (hp : p.isTidy = true) : (make id p).Tidy := by
  rw [tidy_iff, childList_make]
  exact ⟨⟨hp, Behavior.tidy_empty⟩, fun c hc => absurd hc List.not_mem_nil⟩

/-- A copy of a tidy tree is tidy. -/
theorem tidy_of_bodies {m n : Node} (h : m.bodies = n.bodies) (hn : n.Tidy) : m.Tidy := by
  refine forall_shells_of_bodies (fun s t heq htidy => ?_) h hn
  obtain ⟨hprops, hrest⟩ := Prod.mk.inj heq
  obtain ⟨-, hbehavior⟩ := Prod.mk.inj hrest
  exact ⟨hprops ▸ htidy.props, hbehavior ▸ htidy.behavior⟩

/-- A tree that comes back from the wire, and is written as a legible value, is legible. -/
theorem legible_of_wireStable {n : Node} (h : n.WireStable) (hn : n.toJson.Legible) : n.Legible :=
  legible_of_ofJson? hn h

end Node

/-! ## Intents -/

namespace Intent

/-- **What comes with an intent keeps tidy values**: a node to insert, props to merge, and the actions
of a patch. -/
def Tidy : Intent → Prop
  | .insert _ node => node.Tidy
  | .setProps _ partials => ∀ e ∈ partials, e.2.isTidy = true
  | .setBehavior _ patch => ∀ slot a, patch.action slot = some (some a) → a.isTidy = true
  | _ => True

/-- **A legible intent**: what comes with it is legible, and no empty name is set. -/
structure Legible (i : Intent) : Prop where
  fromWire : i.FromWire
  tidy : i.Tidy
  names : i.setsEmptyName = false

variable {registry : Registry} {supply : Node.Supply} {tree : Node} {i : Intent}

/-- What is inserted is tidy: it is given, or made, or the copy of a template. -/
theorem tidy_of_subtree? {node : Node} {rest : Node.Supply}
    (hregistry : ∀ t ∈ registry.templates, t.schema.Tidy) (hi : i.Tidy)
    (h : i.subtree? registry supply tree = some (node, rest)) : node.Tidy := by
  rcases subtree?_cases h with ⟨_, kind, id, -, rfl⟩ | ⟨_, rfl⟩ | ⟨_, _, t, -, ht, hcopy⟩
  · exact Node.tidy_make (Props.isTidy_palette kind)
  · exact hi
  · exact Node.tidy_of_bodies (Node.freshCopy?_spec hcopy).2.2 (hregistry t ht)

/-- **One edit** of a tree that is legible leaves it tidy. -/
theorem Effect.tidy {result : Node} (h : Effect registry supply tree result i)
    (hregistry : ∀ t ∈ registry.templates, t.schema.Tidy) (hi : i.Tidy) (htree : tree.Legible) :
    result.Tidy := by
  intro s hs
  cases h.origin hs with
  | kept mem => exact htree.tidy s mem
  | arrived node rest subtree mem => exact tidy_of_subtree? hregistry hi subtree s mem
  | merged id partials old props mem merged =>
    refine ⟨?_, (htree.tidy old mem).behavior⟩
    exact Props.isTidy_of_merged? (htree.stable old mem).props (htree.tidy old mem).props hi merged
  | patched id patch old mem =>
    exact ⟨(htree.tidy old mem).props, Behavior.tidy_apply (htree.tidy old mem).behavior hi⟩

/-- **An accepted intent** keeps a tree legible. -/
theorem legible_apply {a : Applied} (htree : tree.Legible)
    (hregistry : ∀ t ∈ registry.templates, t.schema.Legible) (hi : i.Legible)
    (h : apply registry supply tree i = .ok a) : a.tree.Legible := by
  cases outcome registry supply tree i with
  | refused e reason edit result =>
    rw [result] at h
    cases h
  | accepted b reason edit result inserted effect =>
    rw [result] at h
    obtain rfl : b = a := Except.ok.inj h
    refine ⟨?_, effect.tidy (fun t ht => (hregistry t ht).tidy) hi.tidy htree⟩
    exact (effect.stable_iff (fun t ht => (hregistry t ht).stable) hi.fromWire htree.stable).2
      hi.names

end Intent

/-- **The templates that an editor starts with** are legible. -/
theorem Builtin.legible_registry : ∀ t ∈ Builtin.registry.templates, t.schema.Legible := by
  have hwire : ∀ t ∈ Builtin.registry.templates,
      t.schema.WireStable ∧ t.schema.toJson.Legible := by
    decide +kernel
  intro t ht
  exact Node.legible_of_wireStable (hwire t ht).1 (hwire t ht).2

end PageBuilder
