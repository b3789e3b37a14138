/-
  An editing session: one page being edited, with a selected node and a mode.

  Program:        `Session.perform`.
  Specification:  an operation either succeeds, or says why not and leaves the session as it was.
                  Whatever replaces the tree, the selected id occurs in it afterwards: a selection
                  that is gone falls back to the root.
  Crux:           every replacement of the tree goes through `withTree`; whether the others are to be
                  told of it is part of the outcome, and so is the reply, which may be an error.
-/
import PageBuilder.Intent
import PageBuilder.Project.Store
import PageBuilder.Template.Builtin
import PageBuilder.View.Render

namespace PageBuilder

/-- A page being edited. -/
structure Session where
  tree : Node
  /-- Id of the selected node. -/
  selection : String
  mode : Mode
  templates : Registry
deriving DecidableEq

/-- Why an operation fails. -/
inductive SessionError where
  | edit (e : EditError)
  | storage (e : StorageError)
  /-- No rows were generated. -/
  | generation
  | projectNotFound (id : String)
  | notADataList (id : String)
deriving DecidableEq, Repr

/-- The text of an error. -/
def SessionError.message : SessionError → String
  | .edit e => e.message
  | .storage .inaccessible => "Failed to access the project file"
  | .storage .corrupt => "Corrupt project file"
  | .generation => "generation failed"
  | .projectNotFound id => "No saved project with id '" ++ id ++ "'"
  | .notADataList id => "Node '" ++ id ++ "' is not a DataList"

namespace Session

/-- A session over a tree, with its root selected. -/
def start (tree : Node) (templates : Registry) : Session := ⟨tree, tree.id, .design, templates⟩

/-- The selected node. -/
def selectedNode? (s : Session) : Option Node := s.tree.find? s.selection

/-- **Another tree** in place of the one there is. -/
def withTree (s : Session) (t : Node) : Session :=
  { s with tree := t, selection := if t.contains s.selection then s.selection else t.id }

/-- Select a node; an id that does not occur changes nothing. -/
def select (s : Session) (id : String) : Session :=
  if s.tree.contains id then { s with selection := id } else s

/-- The view of the page, in the session's mode and with its selection. -/
def render? (s : Session) (vs : Variables) : Option View :=
  View.render? ⟨s.mode, vs, some s.selection⟩ s.tree

/-! ## Edits -/

/-- What an editor asks for. -/
inductive Edit where
  | apply (i : Intent)
  /-- Add a component under the selected container. -/
  | add (k : Option Kind)
  /-- Add a copy of a template under the selected container. -/
  | template (id : String)
  | deleteSelected
deriving DecidableEq

/-- The selected id, if it is a container's. -/
def selectedContainer (s : Session) : Except SessionError String :=
  match s.selectedNode? with
  | some n => if n.isContainer then .ok s.selection else .error (.edit (.notAContainer s.selection))
  | none => .error (.edit (.notFound s.selection))

/-- The intent behind an edit. -/
def intent (s : Session) : Edit → Except SessionError Intent
  | .apply i => .ok i
  | .add k => s.selectedContainer.map fun id => .addNode id k
  | .template t => s.selectedContainer.map fun id => .addTemplate id t
  | .deleteSelected => .ok (.delete s.selection)

/-- **An edit**; the outcome has the tree after it and the generated ids that are left. -/
def edit (s : Session) (supply : Node.Supply) (e : Edit) : Except SessionError Applied :=
  match s.intent e with
  | .error e => .error e
  | .ok i =>
    match i.apply s.templates supply s.tree with
    | .error e => .error (.edit e)
    | .ok a => .ok a

/-! ## Rows -/

/-- Props that hold rows and nothing else. -/
def rowsPartial (rows : List ListItem) : Json.Fields :=
  [("items", .array (rows.map ListItem.toJson))]

/-- **The tree with other rows** in a data list; `none` if they are the ones it has. -/
def fill (s : Session) (id : String) (generated : Option (List ListItem)) :
    Except SessionError (Option Node) :=
  match s.tree.find? id with
  | none => .error (.edit (.notFound id))
  | some n =>
    if n.kind? != some .dataList then .error (.notADataList id)
    else
      match generated with
      | none => .error .generation
      | some rows =>
        match (Intent.setProps id (rowsPartial rows)).apply s.templates [] s.tree with
        | .ok a => .ok (some a.tree)
        | .error (.unchanged _) => .ok none
        | .error e => .error (.edit e)

/-! ## Operations -/

/-- What is done with a session. -/
inductive Op where
  | select (id : String)
  | setMode (m : Mode)
  | edit (supply : Node.Supply) (e : Edit)
  /-- Take over a tree from elsewhere. -/
  | adopt (t : Node)
  /-- Go on with a saved project, given what the store holds under the id. -/
  | load (id : String) (stored : Except StorageError (Option Project))
  /-- Replace the rows of a data list, given what was generated. -/
  | fill (id : String) (generated : Option (List ListItem))

/-- What an operation tells. -/
inductive Reply where
  | done
  | selected (found : Bool)
  | edited (inserted : Option String) (left : Node.Supply)
  | loaded (p : Project)
  | filled (count : Nat)
deriving DecidableEq

/-- The session after an operation, whether others are to be told of its tree, and the reply. -/
structure Done where
  session : Session
  announced : Bool
  reply : Except SessionError Reply

/-- What an edit that was done tells; an addition that has no id to tell of counts as no change. -/
def editReply (s : Session) (a : Applied) : Edit → Except SessionError Reply
  | .add _ | .template _ =>
    match a.inserted with
    | some id => .ok (.edited (some id) a.supply)
    | none => .error (.edit (.unchanged s.selection))
  | .apply _ | .deleteSelected => .ok (.edited a.inserted a.supply)

/-- **An operation**. -/
def perform (s : Session) : Op → Done
  | .select id => ⟨s.select id, false, .ok (.selected (s.tree.contains id))⟩
  | .setMode m => ⟨{ s with mode := m }, false, .ok .done⟩
  | .edit supply e =>
    match s.edit supply e with
    | .error err => ⟨s, false, .error err⟩
    | .ok a =>
      let after := s.withTree a.tree
      ⟨after, true, after.editReply a e⟩
  | .adopt t => ⟨s.withTree t, false, .ok .done⟩
  | .load id stored =>
    match stored with
    | .error e => ⟨s, false, .error (.storage e)⟩
    | .ok none => ⟨s, false, .error (.projectNotFound id)⟩
    | .ok (some p) =>
      let after := s.withTree p.schema
      ⟨{ after with selection := after.tree.id }, true, .ok (.loaded p)⟩
  | .fill id generated =>
    let count := (generated.getD []).length
    match s.fill id generated with
    | .error e => ⟨s, false, .error e⟩
    | .ok none => ⟨s, false, .ok (.filled count)⟩
    | .ok (some t) => ⟨s.withTree t, true, .ok (.filled count)⟩

end Session
end PageBuilder
