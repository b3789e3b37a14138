/-
  Sets of characters, as ranges of code points.

  A set of the character database is a list of ranges in rising order; belonging to it is lying in
  one of them.
-/
namespace PageBuilder.Text

/-- Ranges of code points, both ends included. -/
abbrev CharacterSet := List (Nat × Nat)

namespace CharacterSet

def contains (s : CharacterSet) (c : Char) : Bool :=
  s.any fun r => r.1 ≤ c.toNat && c.toNat ≤ r.2

theorem contains_iff (s : CharacterSet) (c : Char) :
    s.contains c = true ↔ ∃ r ∈ s, r.1 ≤ c.toNat ∧ c.toNat ≤ r.2 := by
  simp [contains]

end CharacterSet
end PageBuilder.Text
