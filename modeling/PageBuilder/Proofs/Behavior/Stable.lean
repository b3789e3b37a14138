/-
  Stable behavior: actions and behavior that come back from the wire as they were.

  Programs:       `Action.isStable` — an action does not set a variable to `null`;
                  `Behavior.Stable` — neither variable name is the empty string, and every action is
                  stable.
  Specification:  `Action.ofJson?_toJson_iff`, `Node.behavior?_of_lookup`, `Node.stable_of_behavior?` —
                  what is written of them reads back as it was exactly when they are stable.
  Crux:           everything behind the wire is read by LOOKING UP keys, so a lemma on the value
                  under a key of each kind of field is all that is needed of the written object.
-/
import PageBuilder.Node.Wire

namespace PageBuilder

/-! ## Looking up written fields -/

namespace Json

theorem get?_setField (k x : String) (s : Option String) :
    Entries.get? (setField k s) x = if k = x then s.map .string else none := by
  cases s with
  | none => simp [setField]
  | some s => simp [setField, Entries.get?]

theorem get?_toList_map {α : Type} (k x : String) (f : α → Json) (o : Option α) :
    Entries.get? (o.map fun a => (k, f a)).toList x = if k = x then o.map f else none := by
  cases o with
  | none => simp
  | some a => simp [Entries.get?]

end Json

/-! ## Actions -/

namespace Action

/-- Whether an action comes back from the wire: `null` is no value to set. -/
def isStable : Action → Bool
  | .set _ (some v) => !v.isNull
  | _ => true

/-- A stable action reads back as itself. -/
theorem ofJson?_toJson_of_isStable {a : Action} (h : a.isStable = true) :
    ofJson? a.toJson = some a := by
  cases a with
  | toggle target => cases target <;> rfl
  | set target value =>
    -- a null to set would be read as none
    cases value with
    | none => cases target <;> rfl
    | some v =>
      cases v with
      | null => nomatch h
      | _ => cases target <;> rfl
  | alert message => cases message <;> rfl
  | apiRequest url method target =>
    cases method with
    | none => cases url <;> cases target <;> rfl
    | some m => cases m <;> cases url <;> cases target <;> rfl

/-- Whatever reads as an action reads as a stable one. -/
theorem isStable_of_ofJson? {v : Json} {a : Action} (h : ofJson? v = some a) :
    a.isStable = true := by
  simp only [ofJson?, Option.bind_eq_bind, Option.bind_eq_some_iff] at h
  obtain ⟨⟨t, fs⟩, -, h⟩ := h
  dsimp only at h
  -- by the type of the action; only a value to set can be unstable
  split at h
  · obtain ⟨target, -, rfl⟩ := Option.map_eq_some_iff.1 h
    rfl
  · obtain ⟨target, -, rfl⟩ := Option.map_eq_some_iff.1 h
    cases hv : anyValue fs "value" with
    | none => rfl
    | some v => exact (Option.filter_eq_some_iff.1 hv).2
  · obtain ⟨message, -, rfl⟩ := Option.map_eq_some_iff.1 h
    rfl
  · simp only [Option.bind_eq_some_iff] at h
    obtain ⟨url, -, method, -, target, -, h⟩ := h
    rw [← Option.some.inj h]
    rfl
  · cases h

/-- **The round trip** of an action. -/
theorem ofJson?_toJson_iff {a : Action} : ofJson? a.toJson = some a ↔ a.isStable = true :=
  ⟨isStable_of_ofJson?, ofJson?_toJson_of_isStable⟩

end Action

/-! ## Behavior -/

/-- **Stable behavior**: no variable name is empty, and every action is stable. -/
structure Behavior.Stable (b : Behavior) : Prop where
  bind : b.bind ≠ some ""
  visibleIf : b.visibleIf ≠ some ""
  action : ∀ slot a, b.action slot = some a → a.isStable = true

/-- Behavior with nothing set is stable. -/
theorem Behavior.stable_empty : Behavior.Stable {} := by
  constructor
  · intro h
    cases h
  · intro h
    cases h
  · intro slot a h
    cases slot <;> cases h

namespace Node

theorem get?_actionField (k x : String) (a : Option Action) :
    Entries.get? (actionField k a) x = if k = x then a.map Action.toJson else none :=
  Json.get?_toList_map k x Action.toJson a

/-- The fields in which behavior is written. -/
def behaviorKeys : List String :=
  ["tooltip", "animation", "bind", "visibleIf", "onClick", "onHover", "onBlur"]

/-- An optional text reads as what its field holds. -/
theorem optionalString?_of_get? {fs : Json.Fields} {k : String} {s : Option String}
    (h : Entries.get? fs k = s.map .string) : Json.optionalString? fs k = some s := by
  unfold Json.optionalString?
  rw [h]
  cases s <;> rfl

/-- A variable name reads back unless it is empty. -/
theorem variableName?_of_get? {fs : Json.Fields} {k : String} {s : Option String}
    (h : Entries.get? fs k = s.map .string) (hs : s ≠ some "") : variableName? fs k = some s := by
  unfold variableName?
  rw [optionalString?_of_get? h]
  cases s with
  | none => rfl
  | some t =>
    have ht : t ≠ "" := fun he => hs (congrArg some he)
    simp [Action.present, Option.filter_some, ht]

/-- A name that was read is not empty. -/
theorem ne_empty_of_variableName? {fs : Json.Fields} {k : String} {s : Option String}
    (h : variableName? fs k = some s) : s ≠ some "" := by
  obtain ⟨t, -, rfl⟩ := Option.map_eq_some_iff.1 h
  intro he
  exact absurd (Option.filter_eq_some_iff.1 he).2 (by decide)

/-- A field whose errors are passed over reads back what was written, if that reads at all. -/
theorem lenient_of_get? {α : Type} {read : Json → Option α} {write : α → Json}
    {fs : Json.Fields} {k : String} {o : Option α} (h : Entries.get? fs k = o.map write)
    (ho : ∀ a, o = some a → read (write a) = some a) : lenient read fs k = o := by
  unfold lenient
  rw [h]
  cases o with
  | none => rfl
  | some a => exact ho a rfl

/-- **The round trip** of behavior, out of any object that holds its fields. -/
theorem behavior?_of_lookup {fs : Json.Fields} {b : Behavior} (hb : b.Stable)
    (h : ∀ k ∈ behaviorKeys, Entries.get? fs k = Entries.get? (behaviorFields b) k) :
    behavior? fs = some b := by
  simp only [behaviorKeys, List.forall_mem_cons, behaviorFields, Entries.get?_append,
    Json.get?_setField, Json.get?_toList_map, get?_actionField, String.reduceEq, if_true, if_false,
    Option.or_none, Option.none_or] at h
  obtain ⟨htooltip, hanimation, hbind, hvisible, hclick, hhover, hblur, -⟩ := h
  -- an action that does not read back would be dropped without a word
  have action : ∀ slot a, b.action slot = some a → Action.ofJson? a.toJson = some a :=
    fun slot a ha => Action.ofJson?_toJson_of_isStable (hb.action slot a ha)
  simp only [behavior?, optionalString?_of_get? htooltip, variableName?_of_get? hbind hb.bind,
    variableName?_of_get? hvisible hb.visibleIf,
    lenient_of_get? hanimation fun a _ => Choice.ofJson?_toJson a,
    lenient_of_get? hclick (action .click), lenient_of_get? hhover (action .hover),
    lenient_of_get? hblur (action .blur)]
  rfl

/-- Behavior that was read is stable. -/
theorem stable_of_behavior? {fs : Json.Fields} {b : Behavior} (h : behavior? fs = some b) :
    b.Stable := by
  simp only [behavior?, Option.bind_eq_bind, Option.bind_eq_some_iff] at h
  obtain ⟨tooltip, -, bind, hbind, visibleIf, hvisible, h⟩ := h
  rw [← Option.some.inj h]
  refine ⟨ne_empty_of_variableName? hbind, ne_empty_of_variableName? hvisible, ?_⟩
  intro slot a ha
  cases slot with
  | click | hover | blur =>
    obtain ⟨v, -, hv⟩ := Option.bind_eq_some_iff.1 ha
    exact Action.isStable_of_ofJson? hv

end Node
end PageBuilder
