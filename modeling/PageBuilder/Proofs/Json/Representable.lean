/-
  Values whose numbers are numbers that there are.

  The numbers that there are: whole ones within the words, and the binary64 numbers.  The type of
  numbers has more, but nothing else is ever read.

  Programs:       `numbers` — the numbers in a value; `Representable`.
  Specification:  `representable_of_ofText?` — what a text spells is representable, and
                  `isProper_of_representable` — what is representable is proper.
  Crux:           every magnitude that is read is the result of a rounding, and a rounding ends on
                  the grid.
-/
import PageBuilder.Proofs.Binary64.Rounding

namespace PageBuilder.Json

/-- **The numbers that there are.** -/
def Number.isRepresentable : Number → Bool
  | .whole i => inRange i
  | .binary (.finite _ u) => Binary64.isMagnitude u
  | .binary _ => false

mutual
/-- **The numbers** in a value, in order. -/
def numbers : Json → List Number
  | .number n => [n]
  | .array xs => itemNumbers xs
  | .object fs => fieldNumbers fs
  | _ => []

def itemNumbers : List Json → List Number
  | [] => []
  | x :: xs => numbers x ++ itemNumbers xs

def fieldNumbers : List (String × Json) → List Number
  | [] => []
  | (_, v) :: fs => numbers v ++ fieldNumbers fs
end

/-- **A value whose numbers are numbers that there are.** -/
def Representable (v : Json) : Prop := ∀ n ∈ v.numbers, n.isRepresentable = true

instance (v : Json) : Decidable v.Representable :=
  inferInstanceAs (Decidable (∀ n ∈ v.numbers, n.isRepresentable = true))

/-- The numbers of a list are those of its items. -/
theorem representable_array {xs : List Json} :
    (array xs).Representable ↔ ∀ x ∈ xs, x.Representable := by
  unfold Representable
  induction xs with
  | nil => exact iff_of_true nofun nofun
  | cons x xs ih =>
    rw [List.forall_mem_cons, ← ih]
    exact List.forall_mem_append

/-- The numbers of an object are those of its values. -/
theorem representable_object {fs : Fields} :
    (object fs).Representable ↔ ∀ e ∈ fs, e.2.Representable := by
  unfold Representable
  induction fs with
  | nil => exact iff_of_true nofun nofun
  | cons e fs ih =>
    rw [List.forall_mem_cons, ← ih]
    exact List.forall_mem_append

/-! ## Representable values are proper -/

/-- A number that there is can be held. -/
theorem Number.isProper_of_isRepresentable {n : Number} (h : n.isRepresentable = true) :
    n.isProper = true := by
  rcases n with i | ⟨negative, u⟩ | b | _
  · exact h
  · rfl
  · nomatch h
  · nomatch h

mutual
/-- **What is representable is proper.** -/
theorem isProper_of_representable : ∀ v : Json, v.Representable → v.isProper = true
  | .null, _ | .bool _, _ | .string _, _ => rfl
  | .number n, h => Number.isProper_of_isRepresentable (h n List.mem_cons_self)
  | .array xs, h => areProper_of_representable xs (representable_array.1 h)
  | .object fs, h => holdProper_of_representable fs (representable_object.1 h)

theorem areProper_of_representable : ∀ xs : List Json, (∀ x ∈ xs, x.Representable) →
    areProper xs = true
  | [], _ => rfl
  | x :: xs, h => by
    obtain ⟨hx, hxs⟩ := List.forall_mem_cons.1 h
    rw [areProper, isProper_of_representable x hx, areProper_of_representable xs hxs, Bool.true_and]

theorem holdProper_of_representable : ∀ fs : List (String × Json), (∀ e ∈ fs, e.2.Representable) →
    holdProper fs = true
  | [], _ => rfl
  | (k, v) :: fs, h => by
    obtain ⟨hv, hfs⟩ := List.forall_mem_cons.1 h
    rw [holdProper, isProper_of_representable v hv, holdProper_of_representable fs hfs, Bool.true_and]
end

/-! ## Numbers that are read -/

theorem isMagnitude_zero : Binary64.isMagnitude 0 = true := by decide +kernel

/-- What is rounded is a magnitude. -/
theorem isMagnitude_getD {negative : Bool} {num den : Nat} :
    Binary64.isMagnitude ((Binary64.round negative num den).units?.getD 0) = true := by
  cases h : (Binary64.round negative num den).units? with
  | none => exact isMagnitude_zero
  | some u => exact Binary64.isMagnitude_of_units?_round h

/-- What is divided by a power of ten is a magnitude. -/
theorem isMagnitude_scaleDown (u e : Nat) : Binary64.isMagnitude (scaleDown u e) = true := by
  fun_induction scaleDown u e with
  | case1 => exact isMagnitude_getD
  | case2 => exact isMagnitude_zero
  | case3 u e hlarge hu ih => exact ih

/-- **Scaled digits** are a magnitude that there is. -/
theorem isMagnitude_ofDigits {n u : Nat} {e : Int} (h : ofDigits n e = some u) :
    Binary64.isMagnitude u = true := by
  obtain ⟨w, -, h⟩ := Option.bind_eq_some_iff.1 h
  split at h
  · rw [← Option.some.inj h]
    exact isMagnitude_zero
  · split at h
    · rw [← Option.some.inj h]
      exact isMagnitude_scaleDown w _
    · split at h
      · nomatch h
      · exact Binary64.isMagnitude_of_units?_round h

/-- A number that is read as a fraction is one that there is. -/
theorem isRepresentable_of_binary? {n : Literal} {m : Number} (h : n.binary? = some m) :
    m.isRepresentable = true := by
  simp only [Literal.binary?, Option.map_eq_some_iff] at h
  obtain ⟨u, hu, rfl⟩ := h
  exact isMagnitude_ofDigits hu

/-- **A number that is read** is one that there is. -/
theorem isRepresentable_of_number? {n : Literal} {m : Number} (h : n.number? = some m) :
    m.isRepresentable = true := by
  unfold Literal.number? at h
  dsimp only at h
  split at h
  · -- a whole numeral that has no room in a word is read like one with a point
    split at h
    · split at h
      · -- spelled whole and negative, with room for it
        next hroom =>
        rw [← Option.some.inj h]
        simp only [Bool.and_eq_true, decide_eq_true_eq] at hroom
        simp only [Number.isRepresentable, Number.inRange, Bool.and_eq_true, decide_eq_true_eq]
        omega
      · exact isRepresentable_of_binary? h
    · split at h
      · next hroom =>
        rw [← Option.some.inj h]
        simp only [Number.isRepresentable, Number.inRange, Bool.and_eq_true, decide_eq_true_eq]
        omega
      · exact isRepresentable_of_binary? h
  · exact isRepresentable_of_binary? h

/-! ## Values that are read -/

mutual
theorem representable_of_value? : ∀ (s : Source) {room : Nat} {v : Json},
    s.value? room = some v → v.Representable
  | .null, _, _, h => by
    rw [← Option.some.inj h]
    exact nofun
  | .bool b, _, _, h => by
    rw [← Option.some.inj h]
    exact nofun
  | .number n, _, _, h => by
    obtain ⟨m, hm, rfl⟩ := Option.map_eq_some_iff.1 h
    exact List.forall_mem_singleton.2 (isRepresentable_of_number? hm)
  | .string s, _, _, h => by
    obtain ⟨t, -, rfl⟩ := Option.map_eq_some_iff.1 h
    exact nofun
  | .array xs, room, v, h => by
    -- too deep a value does not read at all
    rw [Source.value?] at h
    split at h
    · nomatch h
    · obtain ⟨vs, hvs, rfl⟩ := Option.map_eq_some_iff.1 h
      exact representable_array.2 (representable_of_values? xs hvs)
  | .object fs, room, v, h => by
    rw [Source.value?] at h
    split at h
    · nomatch h
    · obtain ⟨ws, hws, rfl⟩ := Option.map_eq_some_iff.1 h
      exact representable_object.2
        (representable_of_fields? fs (fun _ he => absurd he List.not_mem_nil) hws)

/-- The numbers of the items that are read are numbers that there are. -/
theorem representable_of_values? : ∀ (xs : List Source) {room : Nat} {vs : List Json},
    Source.values? room xs = some vs → ∀ v ∈ vs, v.Representable
  | [], _, _, h => by
    rw [← Option.some.inj h]
    exact nofun
  | x :: xs, room, vs, h => by
    simp only [Source.values?, Option.bind_eq_bind, Option.bind_eq_some_iff] at h
    obtain ⟨v, hv, ws, hws, h⟩ := h
    rw [← Option.some.inj h]
    exact List.forall_mem_cons.2 ⟨representable_of_value? x hv, representable_of_values? xs hws⟩

/-- What is written over representable fields leaves representable fields. -/
theorem representable_of_fields? : ∀ (fs : List (Option String × Source)) {room : Nat}
    {before after : Fields}, (∀ e ∈ before, e.2.Representable) →
    Source.fields? room before fs = some after → ∀ e ∈ after, e.2.Representable
  | [], _, _, _, hb, h => by
    rw [← Option.some.inj h]
    exact hb
  | (none, _) :: _, _, _, _, _, h => nomatch h
  | (some k, x) :: r, room, before, after, hb, h => by
    simp only [Source.fields?, Option.bind_eq_bind, Option.bind_eq_some_iff] at h
    obtain ⟨v, hv, h⟩ := h
    refine representable_of_fields? r (fun e he => ?_) h
    rcases Entries.mem_put he with he | rfl
    · exact hb e he
    · exact representable_of_value? x hv
end

/-- **What a text spells is representable.** -/
theorem representable_of_ofText? {s : String} {v : Json} (h : ofText? s = some v) :
    v.Representable := by
  obtain ⟨t, -, hv⟩ := Option.bind_eq_some_iff.1 h
  exact representable_of_value? t hv

/-- What a text spells is proper. -/
theorem isProper_of_ofText? {s : String} {v : Json} (h : ofText? s = some v) :
    v.isProper = true :=
  isProper_of_representable v (representable_of_ofText? h)

end PageBuilder.Json
