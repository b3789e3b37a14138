/-
  Edit intents: what an editor asks to be done to a page, and why it is refused.

  Programs:       `apply`.
  Specification:  an intent that is accepted does one of the edits of a tree; one that is refused
                  says why, and of several reasons the first in a fixed order: an unknown template,
                  a node that is not there, a node that is no container, an id that is taken; for
                  props a value that does not fit, then a change that changes nothing.
-/
import PageBuilder.Node.Edit
import PageBuilder.Template.Basic

namespace PageBuilder

/-- A single edit. -/
inductive Intent where
  /-- Add a component from the palette. -/
  | addNode (parent : String) (kind : Option Kind)
  /-- Add a node that is ready. -/
  | insert (parent : String) (node : Node)
  /-- Add a copy of a template. -/
  | addTemplate (parent : String) (template : String)
  /-- Merge props; `null` clears a field. -/
  | setProps (id : String) (props : Json.Fields)
  /-- Patch behavior. -/
  | setBehavior (id : String) (patch : Behavior.Patch)
  /-- Remove a node and everything under it. -/
  | delete (id : String)
deriving DecidableEq

/-- Why an intent is refused. -/
inductive EditError where
  | notFound (id : String)
  | notAContainer (id : String)
  | rootProtected
  | unknownTemplate (id : String)
  | duplicateId (id : String)
  | invalidProps (id : String) (cause : PropsError)
  | unchanged (id : String)
  /-- The supply of generated ids ran out. -/
  | outOfIds
deriving DecidableEq, Repr

/-- The text of an error. -/
def EditError.message : EditError → String
  | .notFound id => "No node with id '" ++ id ++ "'"
  | .notAContainer id => "Node '" ++ id ++ "' cannot hold children"
  | .rootProtected => "The root node cannot be deleted"
  | .unknownTemplate id => "Unknown template: " ++ id
  | .duplicateId id => "Id '" ++ id ++ "' already exists in the tree"
  | .invalidProps id cause => "Invalid props for node '" ++ id ++ "': " ++ cause.message
  | .unchanged id => "Edit on node '" ++ id ++ "' changes nothing"
  | .outOfIds => "No generated id is left"

/-- An edit that was done. -/
structure Applied where
  tree : Node
  /-- Id of the root of what was inserted. -/
  inserted : Option String
  /-- Generated ids still to come. -/
  supply : Node.Supply
deriving DecidableEq

namespace Intent

/-- Id of the node an intent addresses. -/
def target : Intent → String
  | .addNode parent _ => parent
  | .insert parent _ => parent
  | .addTemplate parent _ => parent
  | .setProps id _ => id
  | .setBehavior id _ => id
  | .delete id => id

/-- A component from the palette under an id of its own. -/
def paletteNode? (kind : Option Kind) : Node.Supply → Option (Node × Node.Supply)
  | [] => none
  | s :: rest =>
    let name := match kind with
      | some k => k.idPrefix
      | none => Text.lowercase Kind.unknownName
    some (.make (Node.generated name s) (.palette kind), rest)

/-- The first node with an id. -/
def lookup (tree : Node) (id : String) : Except EditError Node :=
  match tree.find? id with
  | some n => .ok n
  | none => .error (.notFound id)

/-- Insert a subtree, or say why not. -/
def insertUnder (tree : Node) (parent : String) (node : Node) (supply : Node.Supply) :
    Except EditError Applied := do
  let container ← lookup tree parent
  if !container.isContainer then
    .error (.notAContainer parent)
  else
    match Node.duplicateId? tree node with
    | some id => .error (.duplicateId id)
    | none =>
      match tree.insertChild? parent node with
      | some t => .ok ⟨t, some node.id, supply⟩
      | none => .error (.notAContainer parent)

/-- A tree that was edited, or the reason that nothing changed. -/
def changed (supply : Node.Supply) (otherwise : EditError) : Option Node → Except EditError Applied
  | some t => .ok ⟨t, none, supply⟩
  | none => .error otherwise

/-- **The application** of an intent to a tree.  A refused intent uses no generated id. -/
def apply (registry : Registry) (supply : Node.Supply) (tree : Node) :
    Intent → Except EditError Applied
  | .addNode parent kind =>
    match paletteNode? kind supply with
    | some (node, rest) => insertUnder tree parent node rest
    | none => .error .outOfIds
  | .insert parent node => insertUnder tree parent node supply
  | .addTemplate parent id =>
    match Entries.get? registry id with
    | none => .error (.unknownTemplate id)
    | some t =>
      match t.instantiate? tree supply with
      | some (node, rest) => insertUnder tree parent node rest
      | none => .error .outOfIds
  | .setProps id partials => do
    let node ← lookup tree id
    match node.props.merged? partials with
    | .error cause => .error (.invalidProps id cause)
    | .ok _ => changed supply (.unchanged id) (tree.updateProps? id partials)
  | .setBehavior id patch => do
    let _ ← lookup tree id
    changed supply (.unchanged id) (tree.updateBehavior? id patch)
  | .delete id =>
    if tree.isProtected id then .error .rootProtected
    else do
      let _ ← lookup tree id
      changed supply (.notFound id) (tree.delete? id)

end Intent
end PageBuilder
