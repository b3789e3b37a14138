/-
  The rows of a data list.

  Programs:       `toJson`, `ofJson?`, `listOfText?`.
  Specification:  a row is an object with the fields `id`, `title`, `subtitle`, `value`, `badge`, or
                  an array of them in that order.  The first two are strings; each of the others may
                  be missing or `null`.  Other fields are ignored, extra items are not.
-/
import PageBuilder.Json.Printer
import PageBuilder.Json.Record

namespace PageBuilder

namespace Json

/-- The fields of a record given as an object, or as an array of the fields' values in order. -/
def record? (names : List String) : Json → Option Fields
  | .object fs => some fs
  | .array xs => if xs.length ≤ names.length then some (names.zip xs) else none
  | _ => none

/-- A required string field. -/
def requiredString? (fs : Fields) (k : String) : Option String :=
  (Entries.get? fs k).bind Json.string?

/-- A string field that may be missing or `null`; the outer `none` is an error. -/
def optionalString? (fs : Fields) (k : String) : Option (Option String) :=
  match Entries.get? fs k with
  | none | some .null => some none
  | some (.string s) => some (some s)
  | _ => none

/-- A field that is written only when it is set. -/
def setField (k : String) : Option String → Fields
  | none => []
  | some s => [(k, .string s)]

end Json

/-- A row of a data list. -/
structure ListItem where
  id : String
  title : String
  subtitle : Option String
  value : Option String
  badge : Option String
deriving DecidableEq, Repr

namespace ListItem

/-- The wire fields of a row, in order. -/
def fieldNames : List String := ["id", "title", "subtitle", "value", "badge"]

def toJson (i : ListItem) : Json :=
  .object ([("id", .string i.id), ("title", .string i.title)] ++ Json.setField "subtitle" i.subtitle
    ++ Json.setField "value" i.value ++ Json.setField "badge" i.badge)

/-- A row from its fields. -/
def ofFields? (fs : Json.Fields) : Option ListItem := do
  let id ← Json.requiredString? fs "id"
  let title ← Json.requiredString? fs "title"
  let subtitle ← Json.optionalString? fs "subtitle"
  let value ← Json.optionalString? fs "value"
  let badge ← Json.optionalString? fs "badge"
  some ⟨id, title, subtitle, value, badge⟩

/-- **The reader** of a row. -/
def ofJson? (v : Json) : Option ListItem := (v.record? fieldNames).bind ofFields?

/-- A row as it is spelled in a text, nesting at most `room` deep. -/
def ofSource? (room : Nat) (s : Json.Source) : Option ListItem := do
  let fs ← s.record? fieldNames
  let m ← Json.Source.recordValues? (room - 1) fs
  ofFields? m

/-- **The reader** of a text that spells an array of rows. -/
def listOfText? (s : String) : Option (List ListItem) := do
  let xs ← (← Json.Source.ofText? s).items?
  xs.mapM (ofSource? (Json.maxDepth - 1))

@[simp] theorem ofJson?_toJson (i : ListItem) : ofJson? i.toJson = some i := by
  obtain ⟨id, title, subtitle, value, badge⟩ := i
  cases subtitle <;> cases value <;> cases badge <;> rfl

end ListItem
end PageBuilder
