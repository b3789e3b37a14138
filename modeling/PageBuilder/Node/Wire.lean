/-
  Trees as JSON values.

  Programs:       `toJson`, `ofJson?`.
  Specification:  a node is an object — or an array of the fields' values in order — with an `id` and
                  a `type`, both strings, and nine fields that may be missing.  Props are an object
                  and are recovered field by field; an animation or an action that does not read is
                  dropped; an empty variable name counts as none.  What is not set is not written.
  Crux:           children are read by recursion on the value, so the field that holds them is looked
                  for by functions of their own; everything else of a node is read by `assemble?`,
                  which does not recurse.
-/
import PageBuilder.Node.Basic

namespace PageBuilder.Node

/-- The wire fields of a node, in order. -/
def fieldNames : List String :=
  ["id", "type", "props", "children", "tooltip", "animation", "bind", "visibleIf", "onClick",
    "onHover", "onBlur"]

/-! ## Writing -/

/-- The fields before the children. -/
def headFields (id : String) (p : Props) : Json.Fields :=
  [("id", .string id), ("type", .string p.typeName), ("props", .object p.toFields)]

/-- A field of an action, if it is set. -/
def actionField (k : String) (a : Option Action) : Json.Fields :=
  (a.map fun a => (k, a.toJson)).toList

/-- The fields behind the children. -/
def behaviorFields (b : Behavior) : Json.Fields :=
  Json.setField "tooltip" b.tooltip
    ++ (b.animation.map fun a => ("animation", Choice.toJson a)).toList
    ++ Json.setField "bind" b.bind ++ Json.setField "visibleIf" b.visibleIf
    ++ actionField "onClick" b.onClick ++ actionField "onHover" b.onHover
    ++ actionField "onBlur" b.onBlur

mutual
/-- **The writer**. -/
def toJson : Node → Json
  | ⟨id, p, none, b⟩ => .object (headFields id p ++ behaviorFields b)
  | ⟨id, p, some cs, b⟩ =>
    .object (headFields id p ++ ("children", .array (toJsonAll cs)) :: behaviorFields b)

def toJsonAll : List Node → List Json
  | [] => []
  | n :: ns => toJson n :: toJsonAll ns
end

/-! ## Reading what is not the children -/

/-- The props of a node, which are an object if they are there. -/
def propsField? (fs : Json.Fields) : Option Json.Fields :=
  match Entries.get? fs "props" with
  | none => some []
  | some v => v.fields?

/-- A variable name; an empty one counts as none. -/
def variableName? (fs : Json.Fields) (k : String) : Option (Option String) :=
  (Json.optionalString? fs k).map Action.present

/-- A field that is dropped when it does not read. -/
def lenient {α : Type} (read : Json → Option α) (fs : Json.Fields) (k : String) : Option α :=
  (Entries.get? fs k).bind read

/-- The behavior of a node. -/
def behavior? (fs : Json.Fields) : Option Behavior := do
  let tooltip ← Json.optionalString? fs "tooltip"
  let bind ← variableName? fs "bind"
  let visibleIf ← variableName? fs "visibleIf"
  some {
    tooltip, bind, visibleIf
    animation := lenient Choice.ofJson? fs "animation"
    onClick := lenient Action.ofJson? fs "onClick"
    onHover := lenient Action.ofJson? fs "onHover"
    onBlur := lenient Action.ofJson? fs "onBlur" }

/-- The children that belong to props: containers have a list, other kinds have none, and a node
without a kind keeps what came. -/
def fitChildren (p : Props) (children : Option (List Node)) : Option (List Node) :=
  match p with
  | .known k _ => if k.isContainer then some (children.getD []) else none
  | .unknown _ _ => children

/-- A node from its fields and its children. -/
def assemble? (fs : Json.Fields) (children : Option (List Node)) : Option Node := do
  let id ← Json.requiredString? fs "id"
  let typeName ← Json.requiredString? fs "type"
  let m ← propsField? fs
  let behavior ← behavior? fs
  let props := Props.recover typeName m
  some ⟨id, props, fitChildren props children, behavior⟩

/-! ## Reading -/

mutual
/-- **The reader**. -/
def ofJson? : Json → Option Node
  | .object fs =>
    match childrenField? fs with
    | some children => assemble? fs children
    | none => none
  | .array xs =>
    if xs.length ≤ fieldNames.length then
      match childrenAt? 3 xs with
      | some children => assemble? (fieldNames.zip xs) children
      | none => none
    else none
  | _ => none

/-- The children of an object. -/
def childrenField? : List (String × Json) → Option (Option (List Node))
  | [] => some none
  | (k, v) :: fs => if k = "children" then childrenOf? v else childrenField? fs

/-- The children at a position of an array. -/
def childrenAt? : Nat → List Json → Option (Option (List Node))
  | _, [] => some none
  | 0, v :: _ => childrenOf? v
  | i + 1, _ :: vs => childrenAt? i vs

/-- The children a value spells: a list, or none for `null`. -/
def childrenOf? : Json → Option (Option (List Node))
  | .null => some none
  | .array xs => (ofJsonAll? xs).map some
  | _ => none

def ofJsonAll? : List Json → Option (List Node)
  | [] => some []
  | x :: xs =>
    match ofJson? x, ofJsonAll? xs with
    | some n, some ns => some (n :: ns)
    | _, _ => none
end

end PageBuilder.Node
