/-
  Values that are the same.

  Program:        `same` — equality as the application means it: numbers as numbers, objects as maps.
  Specification:  `same_self` — a tidy and proper value is the same as itself;
                  `same_object` — so are two such objects that have one value under every key.
  Crux:           what is no number differs from itself, so the numbers have to be proper; and a field
                  is compared with the first one of its key, so no object may have a key twice.
-/
import Mathlib.Data.List.Basic
import PageBuilder.Proofs.Json.Faithful
import PageBuilder.Proofs.Json.Proper

namespace PageBuilder

/-- A finite number is the same as itself. -/
theorem Binary64.same_self {x : Binary64} (h : x.isFinite = true) : x.same x = true := by
  obtain ⟨n, u, rfl⟩ := Binary64.isFinite_iff.1 h
  exact decide_eq_true rfl

/-- Entries that have the same under every key, and no key twice, are equally many. -/
theorem Entries.length_eq_of_get? {κ α : Type} [DecidableEq κ] {es fs : Entries κ α}
    (hes : (keys es).Nodup) (hfs : (keys fs).Nodup) (h : ∀ x, get? es x = get? fs x) :
    es.length = fs.length := by
  have hkeys : ∀ x, x ∈ keys es ↔ x ∈ keys fs := by
    intro x
    rw [← not_iff_not, ← get?_eq_none_iff, ← get?_eq_none_iff, h]
  have hlength : (keys es).length = (keys fs).length :=
    ((List.perm_ext_iff_of_nodup hes hfs).2 hkeys).length_eq
  rwa [keys, keys, List.length_map, List.length_map] at hlength

namespace Json

/-- A number that JSON can hold is the same as itself; one that is no number is not. -/
theorem Number.same_self {n : Number} (h : n.isProper = true) : n.same n = true := by
  cases n with
  | whole i => exact beq_self_eq_true i
  | binary x => exact Binary64.same_self h

/-- Every field has one that is the same. -/
theorem sameFields_iff {fs gs : Fields} :
    sameFields fs gs = true ↔ ∀ e ∈ fs, ∃ w, Entries.get? gs e.1 = some w ∧ same e.2 w = true := by
  induction fs with
  | nil => exact iff_of_true rfl nofun
  | cons e r ih =>
    obtain ⟨k, v⟩ := e
    rw [sameFields, Bool.and_eq_true, ih, List.forall_mem_cons]
    cases Entries.get? gs k <;> simp

mutual
/-- **A tidy and proper value** is the same as itself. -/
theorem same_self : ∀ {v : Json}, v.isTidy = true → v.isProper = true → same v v = true
  | .null, _, _ => rfl
  | .bool b, _, _ => beq_self_eq_true b
  | .number _, _, h => Number.same_self h
  | .string s, _, _ => beq_self_eq_true s
  | .array _, ht, hp => sameItems_self (isTidy_array.1 ht) (areProper_iff.1 hp)
  | .object fs, ht, hp => by
    obtain ⟨hkeys, hvalues⟩ := isTidy_object.1 ht
    have hfields := same_of_mem hvalues (holdProper_iff.1 hp)
    rw [same, beq_self_eq_true, Bool.true_and, sameFields_iff]
    exact fun e he => ⟨e.2, Entries.get?_of_mem hkeys he, hfields e he⟩

/-- Tidy and proper items are the same as themselves, one by one. -/
theorem sameItems_self : ∀ {xs : List Json}, (∀ x ∈ xs, x.isTidy = true) →
    (∀ x ∈ xs, x.isProper = true) → sameItems xs xs = true
  | [], _, _ => rfl
  | _ :: _, ht, hp => by
    obtain ⟨htx, htxs⟩ := List.forall_mem_cons.1 ht
    obtain ⟨hpx, hpxs⟩ := List.forall_mem_cons.1 hp
    rw [sameItems, same_self htx hpx, sameItems_self htxs hpxs]
    rfl

theorem same_of_mem : ∀ {fs : List (String × Json)}, (∀ e ∈ fs, e.2.isTidy = true) →
    (∀ e ∈ fs, e.2.isProper = true) → ∀ e ∈ fs, same e.2 e.2 = true
  | [], _, _ => nofun
  | (_, _) :: _, ht, hp => by
    obtain ⟨htv, htr⟩ := List.forall_mem_cons.1 ht
    obtain ⟨hpv, hpr⟩ := List.forall_mem_cons.1 hp
    exact List.forall_mem_cons.2 ⟨same_self htv hpv, same_of_mem htr hpr⟩
end

/-- **Objects that have the same under every key** are the same, in whatever order. -/
theorem same_object {fs gs : Fields} (ht : (object fs).isTidy = true)
    (hp : (object fs).isProper = true) (hgs : (Entries.keys gs).Nodup)
    (h : ∀ x, Entries.get? fs x = Entries.get? gs x) : same (object fs) (object gs) = true := by
  obtain ⟨hkeys, hvalues⟩ := isTidy_object.1 ht
  have hfields := same_of_mem hvalues (holdProper_iff.1 hp)
  rw [same, Bool.and_eq_true, beq_iff_eq, sameFields_iff]
  refine ⟨Entries.length_eq_of_get? hkeys hgs h, fun e he => ⟨e.2, ?_, hfields e he⟩⟩
  rw [← h, Entries.get?_of_mem hkeys he]

end Json
end PageBuilder
