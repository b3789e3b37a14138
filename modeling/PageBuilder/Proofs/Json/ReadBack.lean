/-
  A value that was written reads again.

  The writer has no limit on nesting and the reader has one.  Apart from it only a number could fail
  to read.

  Specification:  `exists_value?` — the spelling of a value reads if the value nests no deeper than
                  the reader allows and its numbers are numbers that there are.
-/
import PageBuilder.Proofs.Json.Overflow
import PageBuilder.Proofs.Json.Spelling

namespace PageBuilder.Json

/-- A list is as deep as any of its items. -/
theorem depth_le_depthItems {x : Json} {xs : List Json} (h : x ∈ xs) :
    x.depth ≤ depthItems xs := by
  induction xs with
  | nil => nomatch h
  | cons y ys ih =>
    rw [depthItems]
    rcases List.mem_cons.1 h with rfl | h
    · exact Nat.le_max_left _ _
    · exact Nat.le_trans (ih h) (Nat.le_max_right _ _)

/-- Fields are as deep as any of their values. -/
theorem depth_le_depthFields {e : String × Json} {fs : Fields} (h : e ∈ fs) :
    e.2.depth ≤ depthFields fs := by
  induction fs with
  | nil => nomatch h
  | cons f fs ih =>
    obtain ⟨k, v⟩ := f
    rw [depthFields]
    rcases List.mem_cons.1 h with rfl | h
    · exact Nat.le_max_left _ _
    · exact Nat.le_trans (ih h) (Nat.le_max_right _ _)

mutual
/-- **The spelling of a value reads** within its depth. -/
theorem exists_value? : ∀ (v : Json) {room : Nat}, v.Representable → v.depth ≤ room →
    ∃ w, v.spell.value? room = some w
  | .null, _, _, _ => ⟨_, rfl⟩
  | .bool _, _, _, _ => ⟨_, rfl⟩
  | .string _, _, _, _ => ⟨_, rfl⟩
  | .number n, _, hv, _ => by
    obtain ⟨l, hl, hread⟩ := Number.exists_number? (hv n List.mem_cons_self)
    obtain ⟨m, hm⟩ := Option.isSome_iff_exists.1 hread
    refine ⟨.number m, ?_⟩
    rw [spell, hl, Source.value?, hm, Option.map_some]
  | .array xs, room, hv, hdepth => by
    -- the brackets take one level of the room
    rw [depth] at hdepth
    obtain ⟨ws, hws⟩ := exists_values? xs (representable_array.1 hv)
      (Nat.le_sub_of_add_le hdepth)
    refine ⟨.array ws, ?_⟩
    rw [spell, Source.value?, if_neg (by omega), hws, Option.map_some]
  | .object fs, room, hv, hdepth => by
    rw [depth] at hdepth
    obtain ⟨ws, hws⟩ := exists_fields? fs [] (representable_object.1 hv)
      (Nat.le_sub_of_add_le hdepth)
    refine ⟨.object ws, ?_⟩
    rw [spell, Source.value?, if_neg (by omega), hws, Option.map_some]

/-- The items of a list read as some items. -/
theorem exists_values? : ∀ (xs : List Json) {room : Nat}, (∀ x ∈ xs, x.Representable) →
    depthItems xs ≤ room → ∃ ws, Source.values? room (spellItems xs) = some ws
  | [], _, _, _ => ⟨[], rfl⟩
  | x :: xs, room, hxs, hdepth => by
    obtain ⟨hx, hxs⟩ := List.forall_mem_cons.1 hxs
    rw [depthItems, Nat.max_le] at hdepth
    obtain ⟨w, hw⟩ := exists_value? x hx hdepth.1
    obtain ⟨ws, hws⟩ := exists_values? xs hxs hdepth.2
    refine ⟨w :: ws, ?_⟩
    rw [spellItems, Source.values?, hw, hws]
    rfl

/-- The fields of an object read as some fields. -/
theorem exists_fields? : ∀ (fs : List (String × Json)) (before : Fields) {room : Nat},
    (∀ e ∈ fs, e.2.Representable) → depthFields fs ≤ room →
    ∃ ws, Source.fields? room before (spellFields fs) = some ws
  | [], before, _, _, _ => ⟨before, rfl⟩
  | (k, v) :: fs, before, room, hfs, hdepth => by
    obtain ⟨hv, hfs⟩ := List.forall_mem_cons.1 hfs
    rw [depthFields, Nat.max_le] at hdepth
    obtain ⟨w, hw⟩ := exists_value? v hv hdepth.1
    obtain ⟨ws, hws⟩ := exists_fields? fs (Entries.put before k w) hfs hdepth.2
    refine ⟨ws, ?_⟩
    rw [spellFields, Source.fields?, hw]
    exact hws
end

/-- An object reads as an object. -/
theorem exists_value?_object {fs : Fields} {room : Nat} (hv : (object fs).Representable)
    (hdepth : (object fs).depth ≤ room) :
    ∃ ws, (object fs).spell.value? room = some (.object ws) := by
  obtain ⟨w, hw⟩ := exists_value? (object fs) hv hdepth
  have hread := hw
  rw [spell, Source.value?, if_neg (by rw [depth] at hdepth; omega)] at hread
  obtain ⟨ws, -, rfl⟩ := Option.map_eq_some_iff.1 hread
  exact ⟨ws, hw⟩

end PageBuilder.Json
