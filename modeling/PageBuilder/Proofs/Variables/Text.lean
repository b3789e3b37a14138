/-
  Variables that come back from their text.

  Program:        `EventOutcome.settled` — the variables after an interaction, its request answered.
  Specification:  `ofText?_text` — the text of variables reads as those variables, in their order, if
                  they nest no deeper than the reader allows, and else not at all;
                  `isTidy_settled` — an interaction with a tidy page leaves such variables.
  Crux:           every name comes once, so that writing the variables of a snapshot one by one gives
                  the snapshot.
-/
import PageBuilder.Interpreter.Basic
import PageBuilder.Proofs.Node.Tidy
import PageBuilder.Variables.Text

namespace PageBuilder

/-! ## Texts -/

namespace Variables

variable {vs : Variables}

/-- **The text of variables** whose numbers survive reads as those variables, or nests too deep. -/
theorem ofText?_text (h : (Json.object vs).isTidy = true)
    (hn : ∀ n ∈ (Json.object vs).numbers, n.Survives) :
    ofText? vs.text = if (Json.object vs).depth ≤ Json.maxDepth then some vs else none := by
  have hread : Json.ofText? vs.text
      = if (Json.object vs).depth ≤ Json.maxDepth then some (.object vs) else none :=
    Json.ofText?_write_eq Json.Style.blank_pretty ⟨h, hn⟩
  rw [ofText?, hread]
  split
  · show some (ofSnapshot vs) = some vs
    rw [ofSnapshot_eq_self (Json.isTidy_object.1 h).1]
  · rfl

/-- **Variables that are read** are tidy. -/
theorem isTidy_of_ofText? {s : String} (h : ofText? s = some vs) :
    (Json.object vs).isTidy = true := by
  obtain ⟨fs, hfs, rfl⟩ := Option.map_eq_some_iff.1 h
  obtain ⟨v, hv, hobject⟩ := Option.bind_eq_some_iff.1 hfs
  have htidy : (Json.object fs).isTidy = true := by
    have hlegible := Json.legible_of_ofText? hv
    cases v with
    | object gs =>
      rw [← Option.some.inj hobject]
      exact hlegible.tidy
    | null | bool _ | number _ | string _ | array _ => cases hobject
  rw [ofSnapshot_eq_self (Json.isTidy_object.1 htidy).1]
  exact htidy

end Variables

/-! ## Interactions -/

variable {vs : Variables}

/-- An action that sets a tidy value. -/
theorem Action.isTidy_execute {a : Action} (ha : a.isTidy = true)
    (hvs : (Json.object vs).isTidy = true) : (Json.object (a.execute vs).1).isTidy = true := by
  unfold execute
  split
  · exact hvs
  · exact Json.isTidy_put hvs rfl
  · next target value hvalid =>
    refine Json.isTidy_put hvs ?_
    -- only one action stores a value of its own
    cases a with
    | set t v =>
      simp only [valid?, Option.bind_eq_bind, Option.bind_eq_some_iff] at hvalid
      obtain ⟨w, hw, u, -, h⟩ := hvalid
      obtain ⟨-, rfl⟩ := ValidAction.set.inj (Option.some.inj h)
      obtain ⟨rfl, -⟩ := Option.filter_eq_some_iff.1 hw
      exact ha
    | toggle t =>
      obtain ⟨u, -, h⟩ := Option.map_eq_some_iff.1 hvalid
      cases h
    | alert m => cases hvalid
    | apiRequest url method t =>
      simp only [valid?, Option.bind_eq_bind, Option.bind_eq_some_iff] at hvalid
      obtain ⟨u, -, h⟩ := hvalid
      cases h
  · exact hvs
  · exact hvs

/-- An answer is kept as a text. -/
theorem Request.isTidy_resolve (r : Request) (answer : Option String)
    (hvs : (Json.object vs).isTidy = true) :
    (Json.object (r.resolve answer vs).1).isTidy = true := by
  unfold resolve
  split
  · exact Json.isTidy_put hvs rfl
  · exact hvs

namespace Event

/-- Whether an interaction brings a tidy value, if it brings one. -/
def isTidy : Event → Bool
  | .change value => value.isTidy
  | _ => true

variable {e : Event}

/-- What an event leaves at a node is tidy. -/
theorem isTidy_handleAt {n : Node} (he : e.isTidy = true) (hn : n.behavior.Tidy)
    (hvs : (Json.object vs).isTidy = true) : (Json.object (e.handleAt n vs).1).isTidy = true := by
  cases e with
  | select => exact hvs
  | fire slot =>
    dsimp only [handleAt]
    split
    · exact hvs
    · next a ha => exact Action.isTidy_execute (hn slot a ha) hvs
  | change value =>
    dsimp only [handleAt]
    split
    · exact hvs
    · exact Json.isTidy_put hvs he

theorem isTidy_handle {tree : Node} (he : e.isTidy = true) (htree : tree.Tidy) (mode : Mode)
    (id : String) (hvs : (Json.object vs).isTidy = true) :
    (Json.object (e.handle tree mode id vs).1).isTidy = true := by
  unfold handle
  split
  · exact hvs
  · exact hvs
  · exact hvs
  · next n hfound _ =>
    have hshell : n.shell ∈ tree.shells := List.mem_map_of_mem (Node.mem_of_find? hfound).1
    exact isTidy_handleAt he (htree n.shell hshell).behavior hvs

end Event

/-- **The variables after an interaction**, its request answered. -/
def EventOutcome.settled (answer : Request → Option String) (vs : Variables) :
    EventOutcome → Variables
  | .action (.pending r) => (r.resolve (answer r) vs).1
  | _ => vs

theorem EventOutcome.isTidy_settled (o : EventOutcome) (answer : Request → Option String)
    (hvs : (Json.object vs).isTidy = true) : (Json.object (o.settled answer vs)).isTidy = true := by
  unfold settled
  split
  · exact Request.isTidy_resolve _ _ hvs
  · exact hvs

end PageBuilder
