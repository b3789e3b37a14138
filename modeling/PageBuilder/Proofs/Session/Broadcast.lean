/-
  What an operation of a session does to the other sessions in its room.

  Programs:       `Op.isQuiet`, `Op.Replaces` — operations after which the others are told nothing, and
                  operations after which they are told of the tree.
  Specification:  `perform_of_run` — after any run, an operation that fails changes nothing in the
                  room, one that replaces the tree puts it into the inbox of every other session that
                  is attached, as it arrives over the wire, and a session never hears itself.
  Crux:           a session is told to be announced only by the operation that succeeded, so failing
                  early and failing late come to the same: the room as it was.
-/
import PageBuilder.Proofs.Node.ReadBack
import PageBuilder.Proofs.Session.Room
import PageBuilder.Proofs.Session.Selection

namespace PageBuilder

/-! ## Operations -/

namespace Session

variable {s : Session} {op : Op}

/-- **The intent behind an edit**: the one that came with it, a deletion, or an addition. -/
theorem intent_cases {e : Edit} {i : Intent} (h : s.intent e = .ok i) :
    e = .apply i ∨ (e = .deleteSelected ∧ i = .delete s.selection) ∨
    (∃ k id, e = .add k ∧ i = .addNode id k) ∨ ∃ t id, e = .template t ∧ i = .addTemplate id t := by
  cases e with
  | apply j => exact Or.inl (congrArg Edit.apply (Except.ok.inj h))
  | deleteSelected => exact Or.inr (Or.inl ⟨rfl, (Except.ok.inj h).symm⟩)
  | add k =>
    rw [intent] at h
    -- what is added goes under the selected node, if that can hold it
    cases hc : s.selectedContainer with
    | error err =>
      rw [hc] at h
      cases h
    | ok id =>
      rw [hc] at h
      exact Or.inr (Or.inr (Or.inl ⟨k, id, rfl, (Except.ok.inj h).symm⟩))
  | template t =>
    rw [intent] at h
    cases hc : s.selectedContainer with
    | error err =>
      rw [hc] at h
      cases h
    | ok id =>
      rw [hc] at h
      exact Or.inr (Or.inr (Or.inr ⟨t, id, rfl, (Except.ok.inj h).symm⟩))

/-- An edit that adds something stands for an intent that does. -/
theorem adds_of_intent {e : Edit} {i : Intent} (he : e.adds = true) (h : s.intent e = .ok i) :
    i.adds = true := by
  rcases intent_cases h with rfl | ⟨rfl, -⟩ | ⟨k, id, -, rfl⟩ | ⟨t, id, -, rfl⟩
  · cases he
  · cases he
  · rfl
  · rfl

/-- An edit is done just if it stands for an intent that is accepted. -/
theorem edit_eq_ok_iff {supply : Node.Supply} {e : Edit} {a : Applied} :
    s.edit supply e = .ok a ↔
      ∃ i, s.intent e = .ok i ∧ i.apply s.templates supply s.tree = .ok a := by
  constructor
  · intro h
    unfold edit at h
    split at h
    · cases h
    · next i hi =>
      split at h
      · cases h
      · next b happly =>
        rw [← Except.ok.inj h]
        exact ⟨i, hi, happly⟩
  · rintro ⟨i, hi, happly⟩
    rw [edit, hi]
    dsimp only
    rw [happly]

/-- **An edit that was done** can be told of. -/
theorem exists_editReply {supply : Node.Supply} {e : Edit} {a : Applied}
    (h : s.edit supply e = .ok a) (after : Session) : ∃ reply, after.editReply a e = .ok reply := by
  cases he : e.adds with
  | false =>
    cases e with
    | add | template => cases he
    | apply | deleteSelected => exact ⟨_, rfl⟩
  | true =>
    obtain ⟨i, hi, happly⟩ := edit_eq_ok_iff.1 h
    obtain ⟨id, hid⟩ := Intent.exists_inserted (adds_of_intent he hi) happly
    cases e with
    | add | template => exact ⟨.edited (some id) a.supply, by rw [editReply, hid]⟩
    | apply | deleteSelected => cases he

/-- **An edit** fails and changes nothing, or it puts a tree in place and is told to the others. -/
theorem perform_edit_cases (s : Session) (supply : Node.Supply) (e : Edit) :
    (∃ err, s.perform (.edit supply e) = ⟨s, false, .error err⟩) ∨
    ∃ t reply, s.perform (.edit supply e) = ⟨s.withTree t, true, .ok reply⟩ := by
  cases h : s.edit supply e with
  | error err =>
    refine Or.inl ⟨err, ?_⟩
    rw [perform, h]
  | ok a =>
    obtain ⟨reply, hreply⟩ := exists_editReply h (s.withTree a.tree)
    refine Or.inr ⟨a.tree, reply, ?_⟩
    rw [perform, h]
    dsimp only
    rw [hreply]

/-- **New rows** fail and change nothing, or are the rows that there are and change nothing, or put a
tree in place and are told to the others. -/
theorem perform_fill_cases (s : Session) (id : String) (generated : Option (List ListItem)) :
    (∃ err, s.perform (.fill id generated) = ⟨s, false, .error err⟩) ∨
    (∃ reply, s.perform (.fill id generated) = ⟨s, false, .ok reply⟩) ∨
    ∃ t reply, s.perform (.fill id generated) = ⟨s.withTree t, true, .ok reply⟩ := by
  rcases h : s.fill id generated with err | _ | t
  · refine Or.inl ⟨err, ?_⟩
    rw [perform, h]
  · refine Or.inr (Or.inl ⟨.filled (generated.getD []).length, ?_⟩)
    rw [perform, h]
  · refine Or.inr (Or.inr ⟨t, .filled (generated.getD []).length, ?_⟩)
    rw [perform, h]

/-- **An operation that fails** leaves the session as it was, and the others are told nothing. -/
theorem perform_error {err : SessionError} (h : (s.perform op).reply = .error err) :
    (s.perform op).session = s ∧ (s.perform op).announced = false := by
  -- three operations never fail
  cases op with
  | select | setMode | adopt => nomatch h
  | edit supply e =>
    rcases perform_edit_cases s supply e with ⟨err', heq⟩ | ⟨t, reply, heq⟩
    · rw [heq]
      exact ⟨rfl, rfl⟩
    · rw [heq] at h
      nomatch h
  | load id stored =>
    -- loading fails when the store does, and when there is no such project
    rcases stored with _ | _ | p
    · exact ⟨rfl, rfl⟩
    · exact ⟨rfl, rfl⟩
    · nomatch h
  | fill id generated =>
    rcases perform_fill_cases s id generated with ⟨err', heq⟩ | ⟨reply, heq⟩ | ⟨t, reply, heq⟩
    · rw [heq]
      exact ⟨rfl, rfl⟩
    · rw [heq] at h
      nomatch h
    · rw [heq] at h
      nomatch h

/-- Operations after which the others are told nothing. -/
def Op.isQuiet : Op → Bool
  | .select _ | .setMode _ | .adopt _ => true
  | _ => false

theorem announced_of_isQuiet (h : op.isQuiet = true) : (s.perform op).announced = false := by
  cases op with
  | select | setMode | adopt => rfl
  | edit | load | fill => nomatch h

/-- **Operations that put a tree in place** of the one there is: edits, loads, and fills that change
the tree. -/
def Op.Replaces (s : Session) : Op → Prop
  | .edit _ _ | .load _ _ => True
  | .fill id generated => (s.perform (.fill id generated)).session.tree ≠ s.tree
  | _ => False

/-- **An operation that succeeds and replaces the tree**: the others are to be told of it. -/
theorem announced_of_replaces {reply : Reply} (h : op.Replaces s)
    (hreply : (s.perform op).reply = .ok reply) : (s.perform op).announced = true := by
  cases op with
  | select | setMode | adopt => nomatch h
  | edit supply e =>
    rcases perform_edit_cases s supply e with ⟨err, heq⟩ | ⟨t, reply', heq⟩
    · rw [heq] at hreply
      nomatch hreply
    · rw [heq]
  | load id stored =>
    rcases stored with _ | _ | p
    · nomatch hreply
    · nomatch hreply
    · rfl
  | fill id generated =>
    have hchanged : (s.perform (.fill id generated)).session.tree ≠ s.tree := h
    -- of the three outcomes of a fill only the last one changes the tree
    rcases perform_fill_cases s id generated with ⟨err, heq⟩ | ⟨reply', heq⟩ | ⟨t, reply', heq⟩
    · rw [heq] at hreply
      nomatch hreply
    · rw [heq] at hchanged
      exact absurd rfl hchanged
    · rw [heq]

end Session

/-! ## Rooms -/

namespace Room

variable {r : Room} {name : String} {m : Member}

/-- What a session does in a room: its own part, and what it announces. -/
theorem perform_of_member? (h : r.member? name = some m) (op : Session.Op) :
    r.perform name op =
      (if (m.session.perform op).announced then
        (r.update name fun _ => { m with session := (m.session.perform op).session }).announce
          { m with session := (m.session.perform op).session }
      else r.update name fun _ => { m with session := (m.session.perform op).session },
      (m.session.perform op).reply) := by
  unfold perform
  rw [h]

theorem announce_of_none (h : m.attachment = none) : r.announce m = r := by
  unfold announce
  rw [h]

theorem announce_of_some {a : Attachment} (h : m.attachment = some a) :
    r.announce m = r.send a.peer m.session.tree := by
  unfold announce
  rw [h]

/-- **A session that has a tree put into its inbox**, if it is attached. -/
def told (t : Node) (m : Member) : Member :=
  { m with attachment := m.attachment.map fun a => { a with inbox := some t } }

/-- An operation that changes nothing and announces nothing leaves the room as it was. -/
theorem perform_eq_self {d : Session.Done} (h : r.member? name = some m) {op : Session.Op}
    (hd : m.session.perform op = d) (hsession : d.session = m.session)
    (hannounced : d.announced = false) : (r.perform name op).1 = r := by
  rw [perform_of_member? h, hd, hsession, hannounced]
  show Room.update r name _ = r
  unfold update
  rw [Entries.modify_eq_self h rfl]

/-- **An operation that is told of**, in a session that is attached: its tree is sent. -/
theorem perform_of_announced {a : Attachment} {op : Session.Op} (hm : r.member? name = some m)
    (ha : m.attachment = some a) (htold : (m.session.perform op).announced = true) :
    (r.perform name op).1 = (r.update name fun _ => ⟨(m.session.perform op).session, some a⟩).send
      a.peer (m.session.perform op).session.tree := by
  obtain ⟨session, attachment⟩ := m
  obtain rfl : attachment = some a := ha
  rw [perform_of_member? hm]
  exact if_pos htold

/-- Without an announcement the others stay as they are. -/
theorem member?_perform_of_quiet (h : r.member? name = some m) {op : Session.Op}
    (hquiet : (m.session.perform op).announced = false ∨ m.attachment = none) {other : String}
    (hother : other ≠ name) : (r.perform name op).1.member? other = r.member? other := by
  rw [perform_of_member? h]
  have hupdate := member?_update_ne r hother fun _ =>
    { m with session := (m.session.perform op).session }
  rcases hquiet with hquiet | hquiet
  · rw [hquiet]
    exact hupdate
  · dsimp only
    split
    · have hdetached : ({ m with session := (m.session.perform op).session } : Member).attachment
          = none := hquiet
      rw [announce_of_none hdetached]
      exact hupdate
    · exact hupdate

/-- **An announcement** of a session that is attached: it stays where it is, and every other session
that is attached has the tree in its inbox as it arrives. -/
theorem member?_perform_of_announced (hs : r.Sound) (h : r.member? name = some m)
    {a : Attachment} (ha : m.attachment = some a) {op : Session.Op} {t : Node}
    (hannounced : (m.session.perform op).announced = true)
    (ht : Message.carried? (m.session.perform op).session.tree = some t) :
    (r.perform name op).1.member? name = some ⟨(m.session.perform op).session, some a⟩ ∧
      ∀ {other}, other ≠ name →
        (r.perform name op).1.member? other = (r.member? other).map (told t) := by
  rw [perform_of_member? h, hannounced]
  generalize (m.session.perform op).session = after at ht ⊢
  have hplace := place?_eq h ha
  have hsent : ∀ other, ((r.update name fun _ => { m with session := after }).announce
      { m with session := after }).member? other
        = ((r.update name fun _ => { m with session := after }).member? other).map
          (hearing a.peer t) := by
    intro other
    have hattached : ({ m with session := after } : Member).attachment = some a := ha
    rw [announce_of_some hattached]
    exact member?_send (hs.update_session h after) (Hub.isOpen_of_mem_listeners (hs.listens hplace)) ht other
  refine ⟨?_, fun {other} hother => ?_⟩
  · show Room.member? (Room.announce _ _) name = _
    rw [hsent, member?_update_self h, Option.map_some]
    unfold hearing
    dsimp only
    rw [ha, Option.map_some, if_pos rfl]
  · show Room.member? (Room.announce _ _) other = _
    rw [hsent, member?_update_ne r hother]
    cases hm : r.member? other with
    | none => rfl
    | some m' =>
      rw [Option.map_some, Option.map_some]
      unfold hearing told
      cases hb : m'.attachment with
      | none => rfl
      | some b =>
        -- two sessions are never attached through one peer
        have hne : b.peer ≠ a.peer := by
          intro hpeer
          have hplace' := place?_eq hm hb
          rw [hpeer] at hplace'
          exact hother (hs.apart hplace' hplace)
        rw [Option.map_some, Option.map_some, if_neg hne]

/-- A pull is the session's own affair. -/
theorem member?_pull_ne (r : Room) {other : String} (h : other ≠ name) :
    (r.pull name).member? other = r.member? other :=
  member?_update_ne r h _

/-- **Operations in a room, after any run.**

An operation that fails leaves the room as it was: the tree, the selection, the mode and the inbox of
the session, and those of all others.  Selections, modes, trees that are taken over and pulls leave
the others as they were.  An edit that succeeds, a project that is loaded and rows that change the tree
put the new tree, as it arrives over the wire, into the inbox of every other session that is attached,
if the session is attached itself; its own inbox stays.  The tree must have numbers that there are,
and as a message nest no deeper than the reader allows. -/
theorem perform_of_run (steps : List Step) {name : String} {m : Member}
    (h : (empty.run steps).member? name = some m) (op : Session.Op) :
    let r := empty.run steps
    let d := m.session.perform op
    let after := (r.perform name op).1
    (∀ err, (r.perform name op).2 = .error err → after = r) ∧
    (op.isQuiet = true → ∀ other, other ≠ name → after.member? other = r.member? other) ∧
    (∀ other, other ≠ name → (r.pull name).member? other = r.member? other) ∧
    ∀ reply a, (r.perform name op).2 = .ok reply → op.Replaces m.session → m.attachment = some a →
      d.session.tree.toJson.Representable →
      (Message.toJson d.session.tree).depth ≤ Json.maxDepth →
        after.member? name = some ⟨d.session, some a⟩ ∧
        ∃ t, Message.carried? d.session.tree = some t ∧
          ∀ other, other ≠ name → after.member? other = (r.member? other).map (told t) := by
  have hs : (empty.run steps).Sound := sound_run sound_empty steps
  have hreply : ((empty.run steps).perform name op).2 = (m.session.perform op).reply := by
    rw [perform_of_member? h]
  -- a failure, a quiet operation, a pull, and a tree put in place
  refine ⟨fun err herr => ?_, fun hquiet other hother => ?_, fun other => member?_pull_ne _, ?_⟩
  · rw [hreply] at herr
    obtain ⟨hsession, hannounced⟩ := Session.perform_error herr
    exact perform_eq_self h rfl hsession hannounced
  · exact member?_perform_of_quiet h (Or.inl (Session.announced_of_isQuiet hquiet)) hother
  · intro reply a hok hop ha hrep hdepth
    rw [hreply] at hok
    obtain ⟨t, ht⟩ := Message.exists_carried? hrep hdepth
    have hannounced := Session.announced_of_replaces hop hok
    obtain ⟨hown, hothers⟩ := member?_perform_of_announced hs h ha hannounced ht
    exact ⟨hown, t, ht, fun other hother => hothers hother⟩

/-- Two sessions over one page, both attached. -/
def pairRun : List Step :=
  [.enter "a" notePage Builtin.registry, .enter "b" notePage Builtin.registry, .connect, .connect,
    .attach "a" 1, .attach "b" 2]

/-- The page without its card. -/
def bareFrame : Node := .make "root" (.blank (some .container))

/-- The card goes in one session, and the other one has the page without it in its inbox. -/
theorem perform_of_run_notePage :
    ∃ t, Message.carried? bareFrame = some t ∧
      ((empty.run pairRun).perform "a" (.edit [] (.apply (.delete "card")))).1.member? "b"
        = some ⟨.start notePage Builtin.registry, some ⟨2, 4, some t⟩⟩ := by
  have ha : (empty.run pairRun).member? "a"
      = some ⟨.start notePage Builtin.registry, some ⟨1, 3, none⟩⟩ := by decide +kernel
  have hb : (empty.run pairRun).member? "b"
      = some ⟨.start notePage Builtin.registry, some ⟨2, 4, none⟩⟩ := by decide +kernel
  have hreply : ((empty.run pairRun).perform "a" (.edit [] (.apply (.delete "card")))).2
      = .ok (.edited none []) := by decide +kernel
  have htree : (Session.perform (.start notePage Builtin.registry)
      (.edit [] (.apply (.delete "card")))).session.tree = bareFrame := by decide +kernel
  obtain ⟨-, -, -, hsent⟩ := perform_of_run pairRun ha (.edit [] (.apply (.delete "card")))
  have hdone := hsent _ _ hreply trivial rfl
  rw [htree] at hdone
  obtain ⟨-, t, ht, hothers⟩ := hdone (by decide) (by decide)
  refine ⟨t, ht, ?_⟩
  rw [hothers "b" (by decide), hb]
  rfl

end Room
end PageBuilder
