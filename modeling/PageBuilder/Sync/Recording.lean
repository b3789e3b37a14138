/-
  Listeners that record what they hear.

  Programs:       `Recording.step`, `Recording.record`.
  Specification:  a step either succeeds and tells what it did, or fails and says why; whatever is
                  sent or handed over goes on record for every listener that it reaches, in order.
-/
import PageBuilder.Sync.Hub

namespace PageBuilder

/-- A listener, and the peer at which it listens. -/
structure Subscription where
  peer : Nat
  listener : Nat
deriving DecidableEq, Repr

/-- A hub, and which listener heard what so far, in order. -/
structure Recording where
  hub : Hub
  heard : List (Nat × Node)
deriving DecidableEq

/-- What listeners hear of a sending, when none of them acts on the hub. -/
def Hub.told (h : Hub) (r : Hub.Reached) : List (Nat × Node) :=
  match r.tree with
  | some t => (h.heard r).map (·, t)
  | none => []

namespace Recording

def empty : Recording := ⟨.empty, []⟩

/-- What a listener heard, in order. -/
def record (s : Recording) (listener : Nat) : List Node :=
  s.heard.filterMap fun e => if e.1 = listener then some e.2 else none

/-- What is done with a hub. -/
inductive Step where
  | connect
  | subscribe (peer : Nat)
  | unsubscribe (x : Subscription)
  | close (peer : Nat)
  | broadcast (peer : Nat) (t : Node)
  | deliver (peer : Nat) (raw : String)

/-- What a step that succeeds tells. -/
inductive Reply where
  | connected (peer : Nat)
  | subscribed (x : Subscription)
  | done
  /-- So many peers of a sending, or listeners of a text that was handed over. -/
  | reached (count : Nat)
deriving DecidableEq, Repr

/-- **One step**, and its reply. -/
def step (s : Recording) : Step → Recording × Except SyncError Reply
  | .connect => ({ s with hub := s.hub.connect.1 }, .ok (.connected s.hub.connect.2))
  | .subscribe peer =>
    match s.hub.subscribe peer with
    | .ok (hub, l) => ({ s with hub }, .ok (.subscribed ⟨peer, l⟩))
    | .error e => (s, .error e)
  | .unsubscribe x => ({ s with hub := s.hub.unsubscribe x.peer x.listener }, .ok .done)
  | .close peer => ({ s with hub := s.hub.close peer }, .ok .done)
  | .broadcast peer t =>
    match s.hub.broadcast peer t with
    | .ok r => ({ s with heard := s.heard ++ s.hub.told r }, .ok (.reached r.peers.length))
    | .error e => (s, .error e)
  | .deliver peer raw =>
    match s.hub.deliver peer raw with
    | .ok (ls, t) => ({ s with heard := s.heard ++ ls.map (·, t) }, .ok (.reached ls.length))
    | .error e => (s, .error e)

/-- Steps, one after the other. -/
def run (s : Recording) (steps : List Step) : Recording :=
  steps.foldl (fun s x => (s.step x).1) s

end Recording
end PageBuilder
