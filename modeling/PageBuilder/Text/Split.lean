/-
  Splitting at a character.

  Programs:       `Text.split`, `Text.joined`.
  Specification:  the pieces between the marks, in order, none left out: joining them with the mark
                  gives back the text.
-/
namespace PageBuilder.Text

/-- The pieces of a text between the marks; one more than there are marks. -/
def split (mark : Char) : List Char → List (List Char)
  | [] => [[]]
  | c :: r =>
    if c = mark then [] :: split mark r
    else
      match split mark r with
      | [] => [[c]]
      | p :: ps => (c :: p) :: ps

/-- Pieces with the mark between them. -/
def joined (mark : Char) : List (List Char) → List Char
  | [] => []
  | [p] => p
  | p :: ps => p ++ mark :: joined mark ps

theorem split_ne_nil (mark : Char) (cs : List Char) : split mark cs ≠ [] := by
  cases cs with
  | nil => simp [split]
  | cons c r =>
    simp only [split]
    split
    · simp
    · split <;> simp

/-- **Nothing is lost.** -/
theorem joined_split (mark : Char) (cs : List Char) : joined mark (split mark cs) = cs := by
  induction cs with
  | nil => rfl
  | cons c r ih =>
    by_cases h : c = mark
    · subst h
      cases hs : split c r with
      | nil => exact absurd hs (split_ne_nil c r)
      | cons p ps =>
        rw [hs] at ih
        simp [split, hs, joined, ih]
    · cases hs : split mark r with
      | nil => exact absurd hs (split_ne_nil mark r)
      | cons p ps =>
        rw [hs] at ih
        cases ps with
        | nil => simp_all [split, joined]
        | cons q qs => simp_all [split, joined]

example : split '/' "a//b".toList = [['a'], [], ['b']] := by decide +kernel

end PageBuilder.Text
