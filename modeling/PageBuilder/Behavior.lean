/-
  Behavior: what a node has beside its props — a tooltip, an animation, the variables it is bound to,
  and an action for each event.

  Programs:       `Patch.apply`, `Behavior.same`.
  Specification:  a patch touches some fields and clears or sets each of them; the others stay.
-/
import PageBuilder.Action

namespace PageBuilder

/-- The fields of a node that are neither structure nor props. -/
structure Behavior where
  tooltip : Option String := none
  animation : Option Animation := none
  /-- The variable that drives the node's value. -/
  bind : Option String := none
  /-- The variable that must be true for the node to show. -/
  visibleIf : Option String := none
  onClick : Option Action := none
  onHover : Option Action := none
  onBlur : Option Action := none
deriving DecidableEq

/-- The events that carry an action. -/
inductive EventSlot where
  | click
  | hover
  | blur
deriving DecidableEq, Repr

/-- A partial update: a field that holds `some` is touched, and `some none` clears it. -/
structure Behavior.Patch where
  tooltip : Option (Option String) := none
  animation : Option (Option Animation) := none
  bind : Option (Option String) := none
  visibleIf : Option (Option String) := none
  onClick : Option (Option Action) := none
  onHover : Option (Option Action) := none
  onBlur : Option (Option Action) := none
deriving DecidableEq

namespace Behavior

/-- The action of an event. -/
def action (b : Behavior) : EventSlot → Option Action
  | .click => b.onClick
  | .hover => b.onHover
  | .blur => b.onBlur

/-- Two optional actions, equal as an edit means it. -/
def sameAction : Option Action → Option Action → Bool
  | none, none => true
  | some a, some b => a.same b
  | _, _ => false

/-- Equal behavior, as an edit means it. -/
def same (a b : Behavior) : Bool :=
  a.tooltip == b.tooltip && a.animation == b.animation && a.bind == b.bind
    && a.visibleIf == b.visibleIf && sameAction a.onClick b.onClick
    && sameAction a.onHover b.onHover && sameAction a.onBlur b.onBlur

namespace Patch

/-- Whether nothing is touched. -/
def isEmpty (p : Patch) : Bool := decide (p = {})

/-- **The update**. -/
def apply (p : Patch) (b : Behavior) : Behavior where
  tooltip := p.tooltip.getD b.tooltip
  animation := p.animation.getD b.animation
  bind := p.bind.getD b.bind
  visibleIf := p.visibleIf.getD b.visibleIf
  onClick := p.onClick.getD b.onClick
  onHover := p.onHover.getD b.onHover
  onBlur := p.onBlur.getD b.onBlur

theorem apply_apply (p : Patch) (b : Behavior) : p.apply (p.apply b) = p.apply b := by
  obtain ⟨a1, a2, a3, a4, a5, a6, a7⟩ := p
  cases a1 <;> cases a2 <;> cases a3 <;> cases a4 <;> cases a5 <;> cases a6 <;> cases a7 <;> rfl

end Patch
end Behavior
end PageBuilder
