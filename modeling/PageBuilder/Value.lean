/-
  What a variable's value means to a page: whether it counts as true, and how it shows as text.

  Specification:  a variable that is not there, `null`, `false`, any zero and the empty string are
                  false; everything else is true, empty arrays and objects included.  A string shows
                  as itself, `null` as nothing, all else as its JSON text.
-/
import PageBuilder.Json.Printer

namespace PageBuilder.Json

/-- Whether a value counts as true. -/
def isTrue : Json → Bool
  | .null => false
  | .bool b => b
  | .number n => !n.toBinary64.isZero && !n.toBinary64.isNaN
  | .string s => s != ""
  | .array _ => true
  | .object _ => true

/-- **Truthiness** of a variable that may not be there. -/
def truthy : Option Json → Bool
  | none => false
  | some v => v.isTrue

/-- **The text** a value shows as. -/
def display : Json → String
  | .null => ""
  | .string s => s
  | v => v.compact

end PageBuilder.Json
