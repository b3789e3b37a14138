/-
  Running a page: what actions and interactions do to its variables.

  Programs:       `Action.execute`, `Request.resolve`, `Event.handle`.
  Specification:  an action that cannot run does nothing; a toggle, a set and a value change each
                  write one variable; an alert shows a message; a request is sent LATER, and its
                  answer is written to the variables as they are then.
  Crux:           a request is a plain value, so it can be resolved in any order and against any
                  variables, and the last write wins.
-/
import PageBuilder.Node.Walk
import PageBuilder.View.Basic
import PageBuilder.Json.Reader

namespace PageBuilder

/-- A request waiting to be sent. -/
structure Request where
  url : String
  method : HttpMethod
  /-- The variable that is to hold the answer. -/
  target : Option String
deriving DecidableEq, Repr

/-- What an action did. -/
inductive Outcome where
  /-- A variable was written. -/
  | applied
  /-- A message is shown. -/
  | notified (message : String)
  /-- The action cannot run, and nothing happened. -/
  | inert
  /-- A request is ready to be sent. -/
  | pending (r : Request)
deriving DecidableEq, Repr

/-- **The execution** of an action. -/
def Action.execute (a : Action) (vs : Variables) : Variables × Outcome :=
  match a.valid? with
  | none => (vs, .inert)
  | some (.toggle target) => (Entries.put vs target (.bool (!vs.truthy target)), .applied)
  | some (.set target value) => (Entries.put vs target value, .applied)
  | some (.alert message) => (vs, .notified message)
  | some (.apiRequest url method target) => (vs, .pending ⟨url, method, target⟩)

namespace Request

/-- What is kept of an answer that is not JSON. -/
def fallback : Json := .object [("status", .string "ok"), ("data", .string "Mock Data")]

/-- What is kept of an answer: its value, printed over several lines. -/
def kept (body : String) : Json := .string ((Json.ofText? body).getD fallback).pretty

/-- **The answer** to a request, or its failure, against the variables as they are now; also whether
a variable was written. -/
def resolve (r : Request) (answer : Option String) (vs : Variables) : Variables × Bool :=
  match answer, r.target with
  | some body, some target => (Entries.put vs target (kept body), true)
  | _, _ => (vs, false)

end Request

/-! ## Interactions -/

/-- What a user does to a node. -/
inductive Event where
  | select
  | fire (slot : EventSlot)
  | change (value : Json)
deriving DecidableEq

/-- What an interaction did. -/
inductive EventOutcome where
  | selected (id : String)
  /-- The node's action ran. -/
  | action (o : Outcome)
  /-- A bound variable was written. -/
  | written (name : String)
  | ignored
deriving DecidableEq, Repr

namespace Event

/-- An interaction with a node of a page in use. -/
def handleAt (e : Event) (n : Node) (vs : Variables) : Variables × EventOutcome :=
  match e with
  | .select => (vs, .selected n.id)
  | .fire slot =>
    match n.behavior.action slot with
    | none => (vs, .ignored)
    | some a =>
      let (vs, o) := a.execute vs
      (vs, .action o)
  | .change value =>
    match n.behavior.bind with
    | none => (vs, .ignored)
    | some name => (Entries.put vs name value, .written name)

/-- **The handling** of an interaction: in design mode a node can only be selected. -/
def handle (e : Event) (tree : Node) (mode : Mode) (id : String) (vs : Variables) :
    Variables × EventOutcome :=
  match tree.find? id, mode, e with
  | none, _, _ => (vs, .ignored)
  | some n, _, .select => (vs, .selected n.id)
  | some _, .design, _ => (vs, .ignored)
  | some n, .interactive, e => e.handleAt n vs

end Event
end PageBuilder
