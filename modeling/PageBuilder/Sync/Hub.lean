/-
  The hub that connects editors.

  Editors join a hub as peers, and listen at their peer for trees that the others send.

  Programs:       `connect`, `subscribe`, `unsubscribe`, `close`, `broadcast`, `deliver`.
  Specification:  a tree that is sent reaches every listener of every OTHER peer, peers in the order
                  in which they joined and listeners in the order in which they subscribed.  A peer
                  that is closed neither sends nor receives.
-/
import PageBuilder.Sync.Message

namespace PageBuilder

/-- Why a peer refuses. -/
inductive SyncError where
  | closed
  /-- The text is no message. -/
  | malformed
deriving DecidableEq, Repr

/-- The text of an error. -/
def SyncError.message : SyncError → String
  | .closed => "Sync peer is closed"
  | .malformed => "Malformed sync message"

/-- The open peers with their listeners; peers and listeners are numbered by one counter. -/
structure Hub where
  peers : Entries Nat (List Nat)
  issued : Nat
deriving DecidableEq, Repr

namespace Hub

def empty : Hub := ⟨[], 0⟩

/-- Peers on the hub. -/
def count (h : Hub) : Nat := h.peers.length

def isOpen (h : Hub) (peer : Nat) : Bool := Entries.contains h.peers peer

/-- The listeners of a peer; a closed one has none. -/
def listeners (h : Hub) (peer : Nat) : List Nat := (Entries.get? h.peers peer).getD []

/-- Join as a new peer. -/
def connect (h : Hub) : Hub × Nat :=
  (⟨Entries.put h.peers (h.issued + 1) [], h.issued + 1⟩, h.issued + 1)

/-- Listen at a peer.

A closed peer is refused before a number is taken.  A refusal that took one would only leave a gap:
numbers are told apart and never shown. -/
def subscribe (h : Hub) (peer : Nat) : Except SyncError (Hub × Nat) :=
  if h.isOpen peer then
    let l := h.issued + 1
    .ok (⟨Entries.modify h.peers peer (· ++ [l]), l⟩, l)
  else .error .closed

/-- Listen no longer. -/
def unsubscribe (h : Hub) (peer listener : Nat) : Hub :=
  { h with peers := Entries.modify h.peers peer (·.erase listener) }

/-- Leave. -/
def close (h : Hub) (peer : Nat) : Hub := { h with peers := Entries.erase h.peers peer }

/-- The open peers other than one, in the order in which they joined. -/
def others (h : Hub) (peer : Nat) : List Nat := (Entries.keys h.peers).filter (· != peer)

/-! ## Sending -/

/-- What a sending reached: the tree as it arrived, if it had to be read at all, and the peers. -/
structure Reached where
  peers : List Nat
  tree : Option Node
deriving DecidableEq

/-- **Send a tree** to all other peers. -/
def broadcast (h : Hub) (peer : Nat) (n : Node) : Except SyncError Reached :=
  if !h.isOpen peer then .error .closed
  else
    match h.others peer with
    | [] => .ok ⟨[], none⟩
    | ps =>
      match Message.carried? n with
      | some t => .ok ⟨ps, some t⟩
      | none => .error .malformed

/-- **Hand a text** to the listeners of a peer. -/
def deliver (h : Hub) (peer : Nat) (raw : String) : Except SyncError (List Nat × Node) :=
  if !h.isOpen peer then .error .closed
  else
    match Message.decode? raw with
    | some t => .ok (h.listeners peer, t)
    | none => .error .malformed

/-- The listeners that a sending reaches, when none of them acts on the hub. -/
def heard (h : Hub) (r : Reached) : List Nat := r.peers.flatMap h.listeners

example : (empty.connect.1.connect.1.others 1) = [2] := by decide
example : (empty.connect.1.close 1).count = 0 := by decide

end Hub
end PageBuilder
