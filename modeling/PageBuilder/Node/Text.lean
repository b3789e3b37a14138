/-
  Trees from JSON text.

  Program:        `ofText?`.
  Specification:  a text spells a node if the value it spells does, with three differences: a field
                  that a node does not have is passed over, however deep it nests and whatever its
                  numbers; a field that a node does have may not come twice; and everything else may
                  nest 127 deep.
  Crux:           `Source.node?` turns the spelled tree into a value WITHOUT the fields to be passed
                  over, so that the reader of values does the rest.
-/
import PageBuilder.Node.Wire
import PageBuilder.Json.Record

namespace PageBuilder

namespace Json.Source

mutual
/-- The value of a spelled node, nesting at most `room` deep. -/
def node? (room : Nat) : Source → Option Json
  | .object fs => if room = 0 then none else (nodeFields? (room - 1) fs).map .object
  | .array xs => if room = 0 then none else (nodeItems? (room - 1) 3 xs).map .array
  | v => v.value? room

/-- The fields of a node. -/
def nodeFields? (room : Nat) : List (Option String × Source) → Option Fields
  | [] => some []
  | (none, _) :: _ => none
  | (some k, v) :: r =>
    if k = "children" then do
      let v ← nodeChildren? room v
      let r ← nodeFields? room r
      addField k v r
    else if Node.fieldNames.contains k then do
      let v ← v.value? room
      let r ← nodeFields? room r
      addField k v r
    else nodeFields? room r

/-- The items of a node given as an array, its children `ahead` items further on. -/
def nodeItems? (room : Nat) (ahead : Nat) : List Source → Option (List Json)
  | [] => some []
  | v :: r => do
    let v ← if ahead = 0 then nodeChildren? room v else v.value? room
    let r ← match ahead with
      | 0 => values? room r
      | n + 1 => nodeItems? room n r
    some (v :: r)

/-- The children of a node. -/
def nodeChildren? (room : Nat) : Source → Option Json
  | .array xs => if room = 0 then none else (nodeList? (room - 1) xs).map .array
  | v => v.value? room

def nodeList? (room : Nat) : List Source → Option (List Json)
  | [] => some []
  | x :: xs => do
    let v ← node? room x
    let vs ← nodeList? room xs
    some (v :: vs)
end

end Json.Source

namespace Node

/-- A node from a spelled tree. -/
def ofSource? (room : Nat) (s : Json.Source) : Option Node := (s.node? room).bind ofJson?

/-- **The reader** of a text. -/
def ofText? (s : String) : Option Node :=
  (Json.Source.ofText? s).bind (ofSource? Json.maxDepth)

/-- A tree on one line of text. -/
def compact (n : Node) : String := n.toJson.compact

/-- A tree over several lines of text. -/
def pretty (n : Node) : String := n.toJson.pretty

end Node
end PageBuilder
