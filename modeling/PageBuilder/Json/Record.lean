/-
  Records in JSON text.

  A record is spelled as an object, or as an array of its fields' values in order.  A field that the
  record does not have is passed over, whatever it holds; one that it does have may not come twice.

  Programs:       `Source.record?`, `Source.values?`.
-/
import PageBuilder.Json.Reader

namespace PageBuilder.Json.Source

/-- A field in front of others, unless they have it already. -/
def addField {α : Type} (k : String) (v : α) (rest : Entries String α) :
    Option (Entries String α) :=
  if Entries.contains rest k then none else some ((k, v) :: rest)

/-- The fields of some names in an object. -/
def recordFields? (names : List String) :
    List (Option String × Source) → Option (Entries String Source)
  | [] => some []
  | (none, _) :: _ => none
  | (some k, v) :: r => do
    let r ← recordFields? names r
    if names.contains k then addField k v r else some r

/-- **The fields of a record**, each as it is spelled. -/
def record? (names : List String) : Source → Option (Entries String Source)
  | .object fs => recordFields? names fs
  | .array xs => if xs.length ≤ names.length then some (names.zip xs) else none
  | _ => none

/-- The value of every field, nesting at most `room` deep. -/
def recordValues? (room : Nat) (fs : Entries String Source) : Option Fields :=
  fs.mapM fun e => (e.2.value? room).map fun v => (e.1, v)

/-- A field under another name. -/
def renameField (k l : String) : Source → Source
  | .object fs => .object (fs.map fun e => if e.1 = some k then (some l, e.2) else e)
  | v => v

/-- The string a source spells. -/
def string? : Source → Option String
  | .string s => s
  | _ => none

/-- The items of an array. -/
def items? : Source → Option (List Source)
  | .array xs => some xs
  | _ => none

end PageBuilder.Json.Source
