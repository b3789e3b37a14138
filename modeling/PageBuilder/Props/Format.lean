/-
  Formats: what a modelled prop may hold, and how it stands on the wire.

  Programs:       `read`, `write`.
  Specification:  a prop that is not set is not written, and `null` reads as not set — except for the
                  rows of a data list, which are always written and never `null`.  Every number may
                  be given for a `number`; a `count` is a whole number of 32 bits.
-/
import PageBuilder.ListItem
import PageBuilder.Kind

namespace PageBuilder

/-- What a prop holds. -/
inductive Format where
  | text
  | number
  | count
  | names
  | rows
  | items
  | buttonVariant
  | badgeVariant
  | tone
  | sortKey
  | sortOrder
deriving DecidableEq, Repr

namespace Format

/-- The cell of a prop: the value it holds, if it is set. -/
@[reducible] def Cell : Format → Type
  | .text => Option String
  | .number => Option Binary64
  | .count => Option UInt32
  | .names => Option (List String)
  | .rows => Option (List (List String))
  | .items => List ListItem
  | .buttonVariant => Option ButtonVariant
  | .badgeVariant => Option BadgeVariant
  | .tone => Option AlertTone
  | .sortKey => Option SortKey
  | .sortOrder => Option SortOrder

instance (f : Format) : DecidableEq f.Cell := by cases f <;> infer_instance

/-- The cell of a prop that was never set. -/
def blank : (f : Format) → f.Cell
  | .text => none
  | .number => none
  | .count => none
  | .names => none
  | .rows => none
  | .items => []
  | .buttonVariant => none
  | .badgeVariant => none
  | .tone => none
  | .sortKey => none
  | .sortOrder => none

/-! ## Reading -/

/-- A value that may be `null`; the outer `none` is an error. -/
def readSet {α : Type} (read : Json → Option α) : Json → Option (Option α)
  | .null => some none
  | v => (read v).map some

/-- Every item of an array, or none at all. -/
def readList {α : Type} (read : Json → Option α) : Json → Option (List α)
  | .array xs => xs.mapM read
  | _ => none

def readNumber : Json → Option Binary64
  | .number n => some n.toBinary64
  | _ => none

/-- A whole number of 32 bits. -/
def readCount : Json → Option UInt32
  | .number (.whole i) => if 0 ≤ i ∧ i < UInt32.size then some (UInt32.ofNat i.toNat) else none
  | _ => none

/-- **The reader** of a cell. -/
def read : (f : Format) → Json → Option f.Cell
  | .text => readSet Json.string?
  | .number => readSet readNumber
  | .count => readSet readCount
  | .names => readSet (readList Json.string?)
  | .rows => readSet (readList (readList Json.string?))
  | .items => readList ListItem.ofJson?
  | .buttonVariant => readSet Choice.ofJson?
  | .badgeVariant => readSet Choice.ofJson?
  | .tone => readSet Choice.ofJson?
  | .sortKey => readSet Choice.ofJson?
  | .sortOrder => readSet Choice.ofJson?

/-! ## Writing -/

def writeNames (xs : List String) : Json := .array (xs.map .string)

/-- **The writer** of a cell; a prop that is not set has no field. -/
def write : (f : Format) → f.Cell → Option Json
  | .text, c => c.map .string
  | .number, c => c.map Json.ofBinary64
  | .count, c => c.map fun n => Json.ofNat n.toNat
  | .names, c => c.map writeNames
  | .rows, c => c.map fun rs => .array (rs.map writeNames)
  | .items, c => some (.array (c.map ListItem.toJson))
  | .buttonVariant, c => c.map Choice.toJson
  | .badgeVariant, c => c.map Choice.toJson
  | .tone, c => c.map Choice.toJson
  | .sortKey, c => c.map Choice.toJson
  | .sortOrder, c => c.map Choice.toJson

/-- Cells that hold the same value; a number as a number, all else to the letter. -/
def same : (f : Format) → f.Cell → f.Cell → Bool
  | .number, some x, some y => x.same y
  | .number, none, none => true
  | .number, _, _ => false
  | .text, a, b => a == b
  | .count, a, b => a == b
  | .names, a, b => a == b
  | .rows, a, b => a == b
  | .items, a, b => a == b
  | .buttonVariant, a, b => a == b
  | .badgeVariant, a, b => a == b
  | .tone, a, b => a == b
  | .sortKey, a, b => a == b
  | .sortOrder, a, b => a == b

end Format
end PageBuilder
