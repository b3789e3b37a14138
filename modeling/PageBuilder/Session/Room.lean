/-
  A room: sessions that edit together.

  Every session in a room has a tree of its own.  One that is attached to the hub sends its tree to
  the others after each edit of its own, and keeps the LAST tree it received until it pulls.

  Program:        `Room.step`.
  Specification:  a sending replaces what waits in the inboxes of the other attached sessions and
                  nothing else; what a session has in its inbox changes its tree only when it pulls,
                  and pulling sends nothing.
  Crux:           a peer belongs to whoever holds it.  A session that is attached holds its peer, so
                  nobody else closes it, sends through it or attaches to it.
-/
import PageBuilder.Session.Basic
import PageBuilder.Sync.Hub

namespace PageBuilder

/-- A session's place on the hub, and the tree it received and did not pull yet. -/
structure Attachment where
  peer : Nat
  listener : Nat
  inbox : Option Node
deriving DecidableEq

/-- A session in a room. -/
structure Member where
  session : Session
  attachment : Option Attachment
deriving DecidableEq

/-- A hub and the sessions, by name. -/
structure Room where
  hub : Hub
  members : Entries String Member
deriving DecidableEq

namespace Room

def empty : Room := ⟨.empty, []⟩

/-- A session, if there is one of the name. -/
def member? (r : Room) (name : String) : Option Member := Entries.get? r.members name

/-- Change a member. -/
def update (r : Room) (name : String) (f : Member → Member) : Room :=
  { r with members := Entries.modify r.members name f }

/-- Whether a session holds a peer. -/
def isHeld (r : Room) (peer : Nat) : Bool :=
  r.members.any fun e => e.2.attachment.any fun a => a.peer == peer

/-! ## Coming and going -/

/-- The hub without the peer of a member that goes. -/
def hubWithout (r : Room) (m : Option Member) : Hub :=
  match m.bind (·.attachment) with
  | some a => r.hub.close a.peer
  | none => r.hub

/-- A new session; one of the name that is there already goes. -/
def enter (r : Room) (name : String) (s : Session) : Room :=
  ⟨r.hubWithout (r.member? name), Entries.put r.members name ⟨s, none⟩⟩

/-- Attach a session to the hub through a peer; the peer it was attached through goes. -/
def attach (r : Room) (name : String) (peer : Nat) : Except SyncError Room :=
  match r.hub.subscribe peer with
  | .error e => .error e
  | .ok (hub, l) =>
    let r := { r with hub }
    let hub := r.hubWithout (r.member? name)
    .ok ({ r with hub }.update name fun m => { m with attachment := some ⟨peer, l, none⟩ })

/-- Detach a session; its peer stays on the hub, and nobody holds it. -/
def detach (r : Room) (name : String) : Room :=
  let hub := match (r.member? name).bind (·.attachment) with
    | some a => r.hub.unsubscribe a.peer a.listener
    | none => r.hub
  { r with hub }.update name fun m => { m with attachment := none }

/-! ## Sending and pulling -/

/-- Put a tree into the inboxes of the listeners that heard it. -/
def receive (heard : List Nat) (t : Node) (m : Member) : Member :=
  { m with attachment := m.attachment.map fun a =>
      if heard.contains a.listener then { a with inbox := some t } else a }

/-- **Send** a tree through a peer to the others; what cannot be sent is not sent. -/
def send (r : Room) (peer : Nat) (t : Node) : Room :=
  match r.hub.broadcast peer t with
  | .ok ⟨peers, some t⟩ =>
    let heard := r.hub.heard ⟨peers, some t⟩
    { r with members := r.members.map fun e => (e.1, receive heard t e.2) }
  | _ => r

/-- Send a member's tree, if it is attached. -/
def announce (r : Room) (m : Member) : Room :=
  match m.attachment with
  | none => r
  | some a => r.send a.peer m.session.tree

/-- **Pull**: take over the tree in the inbox. -/
def pull (r : Room) (name : String) : Room :=
  r.update name fun m =>
    match m.attachment with
    | some ⟨peer, listener, some t⟩ =>
      ⟨(m.session.perform (.adopt t)).session, some ⟨peer, listener, none⟩⟩
    | _ => m

/-- Whether a pull would take over a tree. -/
def canPull (r : Room) (name : String) : Bool :=
  ((r.member? name).bind (·.attachment)).any fun a => a.inbox.isSome

/-! ## Steps -/

/-- **An operation of a session**, the sending that follows from it, and the reply. -/
def perform (r : Room) (name : String) (op : Session.Op) :
    Room × Except SessionError Session.Reply :=
  match r.member? name with
  | none => (r, .ok .done)
  | some m =>
    let d := m.session.perform op
    let m := { m with session := d.session }
    let after := r.update name fun _ => m
    (if d.announced then after.announce m else after, d.reply)

/-- What happens in a room. -/
inductive Step where
  /-- A new session over a tree. -/
  | enter (name : String) (tree : Node) (templates : Registry)
  /-- A new peer, held by no session. -/
  | connect
  | attach (name : String) (peer : Nat)
  | detach (name : String)
  /-- Close a peer that no session holds. -/
  | close (peer : Nat)
  /-- Send a tree through a peer that no session holds. -/
  | send (peer : Nat) (t : Node)
  | pull (name : String)
  | perform (name : String) (op : Session.Op)

/-- **One step**; what is asked of a peer that a session holds does not happen. -/
def step (r : Room) : Step → Room
  | .enter name tree templates => r.enter name (.start tree templates)
  | .connect => { r with hub := r.hub.connect.1 }
  | .attach name peer =>
    if r.isHeld peer then r
    else
      match r.attach name peer with
      | .ok r => r
      | .error _ => r
  | .detach name => r.detach name
  | .close peer => if r.isHeld peer then r else { r with hub := r.hub.close peer }
  | .send peer t => if r.isHeld peer then r else r.send peer t
  | .pull name => r.pull name
  | .perform name op => (r.perform name op).1

/-- Steps, one after the other. -/
def run (r : Room) (steps : List Step) : Room := steps.foldl step r

end Room
end PageBuilder
