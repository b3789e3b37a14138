/-
  Values that a text can spell.

  Program:        `Legible` — no object has a key twice, and every number is one that there is.
  Specification:  `legible_of_value?`, `legible_of_ofText?` — what is read is legible.
  Crux:           a key that comes again is written over, so an object that is read has it once.
-/
import PageBuilder.Proofs.Json.Faithful

namespace PageBuilder.Json

/-- **A legible value**: no object has a key twice, and every number is one that there is. -/
structure Legible (v : Json) : Prop where
  tidy : v.isTidy = true
  representable : v.Representable

instance (v : Json) : Decidable v.Legible :=
  decidable_of_iff (v.isTidy = true ∧ v.Representable) ⟨fun h => ⟨h.1, h.2⟩, fun h => ⟨h.1, h.2⟩⟩

theorem Legible.isProper {v : Json} (h : v.Legible) : v.isProper = true :=
  isProper_of_representable v h.representable

/-- A list is legible when its items are. -/
theorem legible_array {xs : List Json} : (array xs).Legible ↔ ∀ x ∈ xs, x.Legible := by
  constructor
  · intro h x hx
    exact ⟨isTidy_array.1 h.tidy x hx, representable_array.1 h.representable x hx⟩
  · intro h
    exact ⟨isTidy_array.2 fun x hx => (h x hx).tidy,
      representable_array.2 fun x hx => (h x hx).representable⟩

/-- An object is legible when its keys are distinct and its values are legible. -/
theorem legible_object {fs : Fields} :
    (object fs).Legible ↔ (Entries.keys fs).Nodup ∧ ∀ e ∈ fs, e.2.Legible := by
  constructor
  · intro h
    obtain ⟨hkeys, htidy⟩ := isTidy_object.1 h.tidy
    exact ⟨hkeys, fun e he => ⟨htidy e he, representable_object.1 h.representable e he⟩⟩
  · rintro ⟨hkeys, h⟩
    exact ⟨isTidy_object.2 ⟨hkeys, fun e he => (h e he).tidy⟩,
      representable_object.2 fun e he => (h e he).representable⟩

theorem legible_string (s : String) : (string s).Legible := by
  refine ⟨rfl, ?_⟩
  intro n hn
  cases hn

/-- Some of the fields of a tidy object. -/
theorem isTidy_of_sublist {fs gs : Fields} (h : fs.Sublist gs) (hgs : (object gs).isTidy = true) :
    (object fs).isTidy = true := by
  obtain ⟨hkeys, hvalues⟩ := isTidy_object.1 hgs
  exact isTidy_object.2 ⟨hkeys.sublist (h.map _), fun e he => hvalues e (h.subset he)⟩

/-- A value written into a tidy object. -/
theorem isTidy_put {fs : Fields} {k : String} {v : Json} (hfs : (object fs).isTidy = true)
    (hv : v.isTidy = true) : (object (Entries.put fs k v)).isTidy = true := by
  obtain ⟨hkeys, hvalues⟩ := isTidy_object.1 hfs
  refine isTidy_object.2 ⟨Entries.nodup_keys_put hkeys k v, fun e he => ?_⟩
  rcases Entries.mem_put he with he | rfl
  · exact hvalues e he
  · exact hv

/-! ## Values that are read -/

mutual
theorem isTidy_of_value? : ∀ (s : Source) {room : Nat} {v : Json},
    s.value? room = some v → v.isTidy = true
  | .null, _, _, h => by
    rw [← Option.some.inj h]
    rfl
  | .bool b, _, _, h => by
    rw [← Option.some.inj h]
    rfl
  | .number n, _, _, h => by
    obtain ⟨m, -, rfl⟩ := Option.map_eq_some_iff.1 h
    rfl
  | .string s, _, _, h => by
    obtain ⟨t, -, rfl⟩ := Option.map_eq_some_iff.1 h
    rfl
  | .array xs, room, v, h => by
    rw [Source.value?] at h
    split at h
    · cases h
    · obtain ⟨vs, hvs, rfl⟩ := Option.map_eq_some_iff.1 h
      exact isTidy_array.2 (isTidy_of_values? xs hvs)
  | .object fs, room, v, h => by
    rw [Source.value?] at h
    split at h
    · cases h
    · obtain ⟨ws, hws, rfl⟩ := Option.map_eq_some_iff.1 h
      -- a key that comes again replaces the value that was read before
      have hblank : (Entries.keys ([] : Fields)).Nodup := List.nodup_nil
      exact isTidy_object.2
        (isTidy_of_fields? fs hblank (fun _ he => absurd he List.not_mem_nil) hws)

/-- The items that are read are tidy. -/
theorem isTidy_of_values? : ∀ (xs : List Source) {room : Nat} {vs : List Json},
    Source.values? room xs = some vs → ∀ v ∈ vs, v.isTidy = true
  | [], _, _, h => by
    rw [← Option.some.inj h]
    intro v hv
    cases hv
  | x :: xs, room, vs, h => by
    simp only [Source.values?, Option.bind_eq_bind, Option.bind_eq_some_iff] at h
    obtain ⟨v, hv, ws, hws, h⟩ := h
    rw [← Option.some.inj h]
    exact List.forall_mem_cons.2 ⟨isTidy_of_value? x hv, isTidy_of_values? xs hws⟩

/-- Fields that are written over tidy ones. -/
theorem isTidy_of_fields? : ∀ (fs : List (Option String × Source)) {room : Nat}
    {before after : Fields}, (Entries.keys before).Nodup → (∀ e ∈ before, e.2.isTidy = true) →
    Source.fields? room before fs = some after →
    (Entries.keys after).Nodup ∧ ∀ e ∈ after, e.2.isTidy = true
  | [], _, _, _, hkeys, hb, h => by
    rw [← Option.some.inj h]
    exact ⟨hkeys, hb⟩
  | (none, _) :: _, _, _, _, _, _, h => by cases h
  | (some k, x) :: r, room, before, after, hkeys, hb, h => by
    simp only [Source.fields?, Option.bind_eq_bind, Option.bind_eq_some_iff] at h
    obtain ⟨v, hv, h⟩ := h
    refine isTidy_of_fields? r (Entries.nodup_keys_put hkeys k v) (fun e he => ?_) h
    rcases Entries.mem_put he with he | rfl
    · exact hb e he
    · exact isTidy_of_value? x hv
end

/-- **What is read is legible.** -/
theorem legible_of_value? {s : Source} {room : Nat} {v : Json} (h : s.value? room = some v) :
    v.Legible := ⟨isTidy_of_value? s h, representable_of_value? s h⟩

theorem legible_of_values? {xs : List Source} {room : Nat} {vs : List Json}
    (h : Source.values? room xs = some vs) : ∀ v ∈ vs, v.Legible := fun v hv =>
  ⟨isTidy_of_values? xs h v hv, representable_of_values? xs h v hv⟩

/-- **What a text reads as is legible.** -/
theorem legible_of_ofText? {s : String} {v : Json} (h : ofText? s = some v) : v.Legible := by
  obtain ⟨t, -, hv⟩ := Option.bind_eq_some_iff.1 h
  exact legible_of_value? hv

end PageBuilder.Json
