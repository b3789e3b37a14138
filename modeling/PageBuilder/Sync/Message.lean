/-
  Messages between editors.

  A message carries a tree as JSON text: an object with the `type` of the message and the tree as
  its `payload`.

  Programs:       `encode`, `decode?`, `carried?`.
  Specification:  the two fields may come in either order, or as an array of two items; other fields
                  are passed over, and neither of the two may come twice.  A payload that comes
                  before the type is read whole before anything is known about it, so then nothing in
                  it is passed over.
  Crux:           the message takes one level of nesting, so a deep tree can be written but does not
                  arrive.
-/
import PageBuilder.Node.Text

namespace PageBuilder.Message

/-- The type of the only message there is. -/
def typeName : String := "SCHEMA_UPDATE"

/-- The two fields of a message. -/
def typeKey : String := "type"
def payloadKey : String := "payload"

/-- A message as a value. -/
def toJson (n : Node) : Json := .object [(typeKey, .string typeName), (payloadKey, n.toJson)]

/-- **The writer**. -/
def encode (n : Node) : String := (toJson n).compact

/-! ## Reading -/

/-- Whether a type is the right one: its name, or a field of that name that holds nothing. -/
def isType : Json.Source → Bool
  | .string s => s == some typeName
  | .object [(k, .null)] => k == some typeName
  | _ => false

/-- A field of a message. -/
inductive Part where
  | type (s : Json.Source)
  | payload (s : Json.Source)

/-- The fields of a message, in order, the others passed over. -/
def parts? : List (Option String × Json.Source) → Option (List Part)
  | [] => some []
  | (none, _) :: _ => none
  | (some k, v) :: r =>
    (parts? r).map fun ps =>
      if k = typeKey then .type v :: ps else if k = payloadKey then .payload v :: ps else ps

/-- Nesting that is left inside a message. -/
def room : Nat := Json.maxDepth - 1

/-- The tree of a message, given its fields. -/
def ofParts? : List Part → Option Node
  | [.type t, .payload p] => if isType t then Node.ofSource? room p else none
  | [.payload p, .type t] =>
    if isType t && (p.value? room).isSome then Node.ofSource? room p else none
  | _ => none

/-- The tree of a message as it is spelled. -/
def ofSource? : Json.Source → Option Node
  | .object fs => (parts? fs).bind ofParts?
  | .array [t, p] => ofParts? [.type t, .payload p]
  | _ => none

/-- **The reader**. -/
def decode? (s : String) : Option Node := (Json.Source.ofText? s).bind ofSource?

/-- **What arrives** when a tree is sent. -/
def carried? (n : Node) : Option Node := decode? (encode n)

end PageBuilder.Message
