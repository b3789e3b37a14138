/-
  Saved projects: named snapshots of a page.

  Programs:       `toJson`, `listOfText?`, `listText`.
  Specification:  a project is a record of an id, a name, a tree, and the time when it was saved, a
                  whole number of 64 bits; the time may also be called `updatedAt`.
-/
import PageBuilder.Node.Text

namespace PageBuilder

/-- A saved page. -/
structure Project where
  id : String
  name : String
  schema : Node
  /-- Milliseconds since 1970. -/
  savedAt : Int
deriving DecidableEq

namespace Project

/-- The wire fields of a project, in order. -/
def fieldNames : List String := ["id", "name", "schema", "savedAt"]

/-- Another name for the time of saving. -/
def savedAtAlias : String := "updatedAt"

def toJson (p : Project) : Json :=
  .object [("id", .string p.id), ("name", .string p.name), ("schema", p.schema.toJson),
    ("savedAt", .number (.whole p.savedAt))]

/-- A whole number of 64 bits, with a sign. -/
def time? : Json → Option Int
  | .number (.whole i) => if i < Json.Number.halfWord then some i else none
  | _ => none

/-- A project as it is spelled in a text, nesting at most `room` deep. -/
def ofSource? (room : Nat) (s : Json.Source) : Option Project := do
  let fs ← (s.renameField savedAtAlias "savedAt").record? fieldNames
  let id ← (Entries.get? fs "id").bind Json.Source.string?
  let name ← (Entries.get? fs "name").bind Json.Source.string?
  let schema ← (Entries.get? fs "schema").bind (Node.ofSource? (room - 1))
  let savedAt ← (Entries.get? fs "savedAt").bind fun v => (v.value? 0).bind time?
  some ⟨id, name, schema, savedAt⟩

/-- **The reader** of a text that spells an array of projects. -/
def listOfText? (s : String) : Option (List Project) := do
  let xs ← (← Json.Source.ofText? s).items?
  xs.mapM (ofSource? (Json.maxDepth - 1))

/-- **The writer** of projects, over several lines. -/
def listText (ps : List Project) : String := (Json.array (ps.map toJson)).pretty

/-- The first project with an id. -/
def find? (ps : List Project) (id : String) : Option Project := ps.find? fun p => p.id == id

/-- Id of a project with a generated suffix. -/
def generatedId (suffix : String) : String := "proj_" ++ suffix

end Project
end PageBuilder
