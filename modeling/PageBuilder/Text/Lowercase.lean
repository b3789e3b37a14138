/-
  Lowercase text.

  Program:        `lowercase s`.
  Specification:  every character becomes its own lowercase, except the capital sigma: it becomes
                  the final form when it ends a word — the nearest character before it that is not
                  passed over has case, and the nearest such character after it has none.
  Crux:           the rule looks both ways, so `lowerFrom` carries the text already passed, its last
                  character first.
-/
import PageBuilder.Text.Letter

namespace PageBuilder.Text

/-- Whether the first character that is not passed over has case. -/
def meetsCased (cs : List Char) : Bool :=
  match cs.dropWhile isCaseIgnorable with
  | c :: _ => isCased c
  | [] => false

/-- The lowercase of one character between its neighbours, those before it in reverse. -/
def lowerBetween (before : List Char) (c : Char) (after : List Char) : List Char :=
  if c = 'Σ' then
    if meetsCased before && !meetsCased after then ['ς'] else ['σ']
  else lowerCharacter c

/-- Lowercase what follows `before`. -/
def lowerFrom (before : List Char) : List Char → List Char
  | [] => []
  | c :: cs => lowerBetween before c cs ++ lowerFrom (c :: before) cs

/-- **The lowercase** of a text. -/
def lowercase (s : String) : String := String.ofList (lowerFrom [] s.toList)

/-- Lowercase of the ASCII letters alone. -/
def asciiLowercase (s : String) : String := String.ofList (s.toList.map Char.toLower)

example : lowercase "ΟΔΟΣ" = "οδος" := by decide +kernel
example : lowercase "ΟΔΟΣΑ" = "οδοσα" := by decide +kernel

end PageBuilder.Text
