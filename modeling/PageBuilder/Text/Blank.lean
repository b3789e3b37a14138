/-
  White space, and the words between it.

  Programs:       `trim`, `words`.
  Specification:  blank is the property White_Space of the character database; `words` are the
                  maximal runs of other characters, in order, so no word is empty or holds a blank.
-/
import PageBuilder.Text.CharacterSet

namespace PageBuilder.Text

/-- The property White_Space. -/
def blanks : CharacterSet :=
  [(9, 13), (32, 32), (133, 133), (160, 160), (5760, 5760), (8192, 8202), (8232, 8233),
   (8239, 8239), (8287, 8287), (12288, 12288)]

def isBlank (c : Char) : Bool := blanks.contains c

/-- Without the blanks at either end. -/
def trim (cs : List Char) : List Char :=
  ((cs.dropWhile isBlank).reverse.dropWhile isBlank).reverse

/-- Whether nothing but blanks is there. -/
def allBlank (s : String) : Bool := s.toList.all isBlank

/-- Split into words; `word` holds the current one, its last character first. -/
def wordsFrom (word : List Char) : List Char → List (List Char)
  | [] => if word.isEmpty then [] else [word.reverse]
  | c :: cs =>
    if isBlank c then
      if word.isEmpty then wordsFrom [] cs else word.reverse :: wordsFrom [] cs
    else wordsFrom (c :: word) cs

/-- **The words** of a text. -/
def words (s : String) : List String := (wordsFrom [] s.toList).map String.ofList

/-- Words with one blank between them. -/
def joinWords (ws : List String) : String := String.intercalate " " ws

theorem isBlank_of_isWhitespace {c : Char} (h : c.isWhitespace = true) : isBlank c = true := by
  simp only [Char.isWhitespace, Bool.or_eq_true, decide_eq_true_eq] at h
  rcases h with ((rfl | rfl) | rfl) | rfl <;> decide

theorem wordsFrom_ne_nil (cs : List Char) :
    ∀ word, ∀ w ∈ wordsFrom word cs, w ≠ [] := by
  induction cs with
  | nil => intro word w hw; grind [wordsFrom, List.reverse_eq_nil_iff]
  | cons c cs ih => intro word w hw; grind [wordsFrom, List.reverse_eq_nil_iff]

theorem not_isBlank_of_mem_wordsFrom (cs : List Char) :
    ∀ word, (∀ c ∈ word, isBlank c = false) →
      ∀ w ∈ wordsFrom word cs, ∀ c ∈ w, isBlank c = false := by
  induction cs with
  | nil => intro word hword w hw c hc; grind [wordsFrom]
  | cons c cs ih => intro word hword w hw d hd; grind [wordsFrom]

example : words " p-4  w-full " = ["p-4", "w-full"] := by decide +kernel

end PageBuilder.Text
