/-
  Columns: texts made wide enough to stand above each other.

  Programs:       `padRight`, `padLeft`.
  Specification:  the text itself, and on one side of it the blanks it lacks; a text that is wide
                  enough stays as it is.
-/
namespace PageBuilder.Text

/-- The blanks a text lacks. -/
def lack (width : Nat) (s : String) : String :=
  String.ofList (List.replicate (width - s.length) ' ')

/-- A text with blanks behind it, at least `width` characters. -/
def padRight (width : Nat) (s : String) : String := s ++ lack width s

/-- A text with blanks in front, at least `width` characters. -/
def padLeft (width : Nat) (s : String) : String := lack width s ++ s

example : padRight 4 "ab" = "ab  " ∧ padLeft 4 "ab" = "  ab" := by decide +kernel

end PageBuilder.Text
