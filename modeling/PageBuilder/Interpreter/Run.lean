/-
  A page in use over time.

  Program:        `Running.step`.
  Specification:  requests are numbered as they arise and may be resolved in any order, each once.
-/
import PageBuilder.Interpreter.Basic

namespace PageBuilder

/-- Variables, and the requests that arose so far; one that was resolved is gone. -/
structure Running where
  vars : Variables
  requests : List (Option Request)
deriving DecidableEq

namespace Running

def start (vs : Variables) : Running := ⟨vs, []⟩

/-- The request of a number, if it still waits. -/
def request? (s : Running) (n : Nat) : Option Request := s.requests[n]?.join

/-- Keep what an action did, and its request if there is one. -/
def keep (s : Running) (vs : Variables) : Outcome → Running
  | .pending r => ⟨vs, s.requests ++ [some r]⟩
  | _ => { s with vars := vs }

/-- What happens to a page in use. -/
inductive Step where
  | execute (a : Action)
  | event (tree : Node) (mode : Mode) (id : String) (e : Event)
  /-- The answer to a request, or its failure. -/
  | resolve (n : Nat) (answer : Option String)
deriving DecidableEq

/-- **One step**. -/
def step (s : Running) : Step → Running
  | .execute a =>
    let (vs, o) := a.execute s.vars
    s.keep vs o
  | .event tree mode id e =>
    let (vs, o) := e.handle tree mode id s.vars
    match o with
    | .action o => s.keep vs o
    | _ => { s with vars := vs }
  | .resolve n answer =>
    match s.request? n with
    | none => s
    | some r => ⟨(r.resolve answer s.vars).1, s.requests.set n none⟩

/-- Steps, one after the other. -/
def run (s : Running) (steps : List Step) : Running := steps.foldl step s

end Running
end PageBuilder
