/-
  Variables: what a page remembers while it runs.

  Programs:       `truthy`, `Write.apply`.
  Specification:  a name that was never written reads as absent and counts as false; names keep the
                  order of their first write, and lose it when they are removed.
-/
import PageBuilder.Value

namespace PageBuilder

/-- Values by name, in the order of their first write. -/
abbrev Variables := Entries String Json

namespace Variables

/-- Whether a variable counts as true. -/
def truthy (vs : Variables) (name : String) : Bool := Json.truthy (Entries.get? vs name)

/-- The names, in order. -/
def names (vs : Variables) : List String := Entries.keys vs

/-- Whether declaring a name creates a variable: the name is not empty and not there yet. -/
def canDeclare (vs : Variables) (name : String) : Bool := name != "" && !Entries.contains vs name

/-- Create a variable that holds the empty string, unless it is there. -/
def declare (vs : Variables) (name : String) : Variables :=
  if vs.canDeclare name then Entries.put vs name (.string "") else vs

/-- The variables of a snapshot. -/
def ofSnapshot (snapshot : Json.Fields) : Variables := Entries.putAll [] snapshot

/-- A change of the variables. -/
inductive Write where
  | set (name : String) (value : Json)
  | declare (name : String)
  | remove (name : String)
  /-- Replace all variables. -/
  | restore (snapshot : Json.Fields)
deriving DecidableEq

/-- **The change**. -/
def Write.apply : Write → Variables → Variables
  | .set name value, vs => Entries.put vs name value
  | .declare name, vs => vs.declare name
  | .remove name, vs => Entries.erase vs name
  | .restore snapshot, _ => ofSnapshot snapshot

/-- A snapshot in which every name comes once. -/
theorem ofSnapshot_eq_self {vs : Variables} (h : (Entries.keys vs).Nodup) : ofSnapshot vs = vs :=
  Entries.putAll_of_nodup h

example : declare [("a", .null)] "a" = [("a", .null)] := by decide
example : declare [("a", .null)] "b" = [("a", .null), ("b", .string "")] := by decide
example : declare [] "" = [] := by decide

end Variables
end PageBuilder
