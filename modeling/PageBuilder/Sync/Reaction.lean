/-
  Listeners that act on the hub.

  A listener may itself send what it heard, or close a peer, while a sending is still under way.

  Program:        `settle`.
  Specification:  everything that follows from one listener is done before the next one runs; who
                  listens at a peer is looked up when its turn comes, and then all of them run.
  Crux:           the work to be done is a STACK of jobs, as in the walk of a tree.  Listeners can
                  answer each other for ever, so the number of jobs is bounded from outside.
-/
import PageBuilder.Sync.Hub

namespace PageBuilder.Hub

/-- Work on a hub. -/
inductive Job where
  /-- Run the listeners of a peer. -/
  | notify (peer : Nat) (t : Node)
  | run (listener : Nat) (t : Node)
  | broadcast (peer : Nat) (t : Node)
  | close (peer : Nat)
deriving DecidableEq

/-- What listeners do with what they hear. -/
abbrev Reactions := Nat → Node → List Job

/-- A hub, the jobs still to be done, and what was heard so far, the last first. -/
structure Busy where
  hub : Hub
  jobs : List Job
  log : List (Nat × Node)

/-- The jobs of a sending. -/
def jobsOf (r : Reached) : List Job :=
  match r.tree with
  | some t => r.peers.map fun p => .notify p t
  | none => []

/-- One job; the jobs that follow from it come first. -/
def Busy.step (react : Reactions) (s : Busy) : Job → Busy
  | .notify peer t => { s with jobs := (s.hub.listeners peer).map (.run · t) ++ s.jobs }
  | .run l t => { s with jobs := react l t ++ s.jobs, log := (l, t) :: s.log }
  | .broadcast peer t =>
    match s.hub.broadcast peer t with
    | .ok r => { s with jobs := jobsOf r ++ s.jobs }
    | .error _ => s
  | .close peer => { s with hub := s.hub.close peer }

/-- At most `fuel` jobs. -/
def Busy.run (react : Reactions) : Nat → Busy → Busy
  | 0, s => s
  | fuel + 1, s =>
    match s.jobs with
    | [] => s
    | j :: js => Busy.run react fuel (Busy.step react { s with jobs := js } j)

/-- Jobs that one sending may take. -/
def jobLimit : Nat := 1000000

/-- **The outcome** of some jobs: the hub, and who heard what, in order. -/
def settle (h : Hub) (react : Reactions) (jobs : List Job) : Hub × List (Nat × Node) :=
  let s := Busy.run react jobLimit ⟨h, jobs, []⟩
  (s.hub, s.log.reverse)

end PageBuilder.Hub
