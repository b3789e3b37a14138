/-
  Editing a text of styling classes.

  Programs:       `replace family current new`, `setWidth`.
  Specification:  the classes of a family are taken out, the others keep their order and number, and
                  the new class is put behind them unless it is empty or there already.  The result
                  has one blank between classes.
  Crux:           a family is any predicate on classes; the width family, for instance, is the texts
                  `w-` followed by `full`, `auto`, `screen`, digits, or digits over digits.
-/
import PageBuilder.Text.Blank
import PageBuilder.Text.Digit
import PageBuilder.Text.WordCharacter

namespace PageBuilder.ClassList

/-- A family of classes. -/
abbrev Family := String → Bool

/-- The classes outside a family, in order. -/
def outside (family : Family) (current : String) : List String :=
  (Text.words current).filter fun c => !family c

/-- **The replacement**: the family out, the new class in. -/
def replace (family : Family) (current new : String) : String :=
  let kept := outside family current
  Text.joinWords (if new == "" || kept.contains new then kept else kept ++ [new])

/-! ## Families -/

/-- One decimal digit or more, of any script. -/
def isNumeral (cs : List Char) : Bool := !cs.isEmpty && cs.all Text.isDecimalDigit

/-- A numeral, or two with a slash between them. -/
def isFraction (cs : List Char) : Bool :=
  match cs.dropWhile Text.isDecimalDigit with
  | [] => isNumeral cs
  | '/' :: r => isNumeral (cs.takeWhile Text.isDecimalDigit) && isNumeral r
  | _ => false

/-- Widths: `w-12`, `w-1/2`, `w-full`, `w-auto`, `w-screen`. -/
def width : Family := fun c =>
  match c.toList with
  | 'w' :: '-' :: r =>
    r == ['f', 'u', 'l', 'l'] || r == ['a', 'u', 't', 'o'] || r == ['s', 'c', 'r', 'e', 'e', 'n']
      || isFraction r
  | _ => false

/-- Paddings: `p-4`. -/
def padding : Family := fun c =>
  match c.toList with
  | 'p' :: '-' :: r => isNumeral r
  | _ => false

/-- Classes with `text-` anywhere in them. -/
def mentionsText : Family := fun c => go c.toList
where
  /-- Look for the mark from every place on. -/
  go : List Char → Bool
    | [] => false
    | c :: cs => ['t', 'e', 'x', 't', '-'].isPrefixOf (c :: cs) || go cs

/-- Classes of word characters alone. -/
def word : Family := fun c => c != "" && c.toList.all Text.isWordCharacter

/-- No class at all: every class has a character. -/
def empty : Family := fun c => c == ""

/-- Put a width in place of the widths that are there. -/
def setWidth (current new : String) : String := replace width current new

/-- Classes of several texts, one blank between them. -/
def join (parts : List String) : String := Text.joinWords (parts.flatMap Text.words)

example : setWidth "p-4 w-auto rounded" "w-full" = "p-4 rounded w-full" := by decide +kernel
example : setWidth "max-w-md w-1/2" "w-auto" = "max-w-md w-auto" := by decide +kernel

end PageBuilder.ClassList
