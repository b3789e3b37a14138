/-
  What waits in the inbox of a session.

  Programs:       `sending?` — what a step sends, and who sends it; `renews` — whether a session takes a
                  place on the hub with a step, or pulls; `latest?` — what another session sent last
                  since that.
  Specification:  `inbox_of_run` — after any run, the inbox of a session that is attached holds what
                  `latest?` says, as it arrives over the wire, and nothing if it says nothing; so a
                  tree that arrives as it is sent is the tree of every session that pulls before
                  anything else is sent.
  Crux:           `member?_step` — whatever a step is, a session that does not move is changed by what
                  it does itself and by what arrives, and its own sendings do not arrive.
-/
import Mathlib.Data.List.DropRight
import PageBuilder.Proofs.Node.Text
import PageBuilder.Proofs.Session.Broadcast

namespace PageBuilder

/-! ## Sendings -/

/-- A tree that is sent, by the session of a name or through a peer that no session holds. -/
structure Sending where
  sender : Option String
  tree : Node
deriving DecidableEq

/-- A tree that can be sent: its numbers are numbers that there are, and as a message it nests no deeper
than the reader allows. -/
def Sending.Fits (s : Sending) : Prop :=
  s.tree.toJson.Representable ∧ (Message.toJson s.tree).depth ≤ Json.maxDepth

instance (s : Sending) : Decidable s.Fits :=
  inferInstanceAs (Decidable (_ ∧ _))

theorem Sending.Fits.exists_carried? {s : Sending} (h : s.Fits) :
    ∃ t, Message.carried? s.tree = some t := Message.exists_carried? h.1 h.2

namespace Session

variable {s : Session}

/-- An operation of which the others are not told leaves the tree as it is, unless the tree is taken
over from elsewhere. -/
theorem tree_perform_of_not_announced {op : Op} (h : (s.perform op).announced = false)
    (hop : ∀ t, op ≠ .adopt t) : (s.perform op).session.tree = s.tree := by
  -- what changes the tree announces it, taking over aside
  cases op with
  | select id =>
    show (s.select id).tree = s.tree
    unfold select
    split <;> rfl
  | setMode mode => rfl
  | adopt t => exact absurd rfl (hop t)
  | edit supply e =>
    rcases perform_edit_cases s supply e with ⟨err, heq⟩ | ⟨t, reply, heq⟩
    · rw [heq]
    · rw [heq] at h
      cases h
  | load id stored =>
    rcases stored with _ | _ | p
    · rfl
    · rfl
    · cases h
  | fill id generated =>
    rcases perform_fill_cases s id generated with ⟨err, heq⟩ | ⟨reply, heq⟩ | ⟨t, reply, heq⟩
    · rw [heq]
    · rw [heq]
    · rw [heq] at h
      cases h

end Session

namespace Room

variable {r : Room} {name : String} {y : Step}

/-- **What a step sends.** -/
def sending? (r : Room) : Step → Option Sending
  | .send peer t => if !r.isHeld peer && r.hub.isOpen peer then some ⟨none, t⟩ else none
  | .perform name op =>
    (r.member? name).bind fun m =>
      if (m.session.perform op).announced && m.attachment.isSome then
        some ⟨some name, (m.session.perform op).session.tree⟩
      else none
  | _ => none

/-- What a step sends, unless the session of the name sends it. -/
def fromOthers? (r : Room) (name : String) (y : Step) : Option Sending :=
  (r.sending? y).filter fun s => s.sender != some name

/-- The tree that arrives of it. -/
def arriving? (r : Room) (name : String) (y : Step) : Option Node :=
  (r.fromOthers? name y).bind fun s => Message.carried? s.tree

/-! ## What a step does to a session that does not move -/

/-- Steps with which a session comes, or changes its place on the hub. -/
def Step.moves (name : String) : Step → Bool
  | .enter other _ _ => other == name
  | .attach other _ => other == name
  | .detach other => other == name
  | _ => false

/-- A session that takes over the tree in its inbox. -/
def pulled (m : Member) : Member :=
  match m.attachment with
  | some ⟨peer, listener, some t⟩ =>
    ⟨(m.session.perform (.adopt t)).session, some ⟨peer, listener, none⟩⟩
  | _ => m

/-- What a session does to itself with a step. -/
def own (name : String) (y : Step) (m : Member) : Member :=
  match y with
  | .pull other => if other = name then pulled m else m
  | .perform other op => if other = name then { m with session := (m.session.perform op).session } else m
  | _ => m

/-- A session to which something arrives, or nothing. -/
def hears (t : Option Node) (m : Member) : Member :=
  match t with
  | some t => told t m
  | none => m

theorem arriving?_of_sending? (h : r.sending? y = none) : r.arriving? name y = none := by
  unfold arriving? fromOthers?
  rw [h]
  rfl

/-- What another one sends arrives. -/
theorem arriving?_of_ne {s : Sending} (h : r.sending? y = some s) (hs : s.sender ≠ some name) :
    r.arriving? name y = Message.carried? s.tree := by
  have hfilter : r.fromOthers? name y = some s := by
    unfold fromOthers?
    rw [h]
    exact Option.filter_some_pos (bne_iff_ne.2 hs)
  unfold arriving?
  rw [hfilter, Option.bind_some]

/-- What a session sends itself does not. -/
theorem arriving?_of_self {t : Node} (h : r.sending? y = some ⟨some name, t⟩) :
    r.arriving? name y = none := by
  have hfilter : r.fromOthers? name y = none := by
    unfold fromOthers?
    rw [h]
    exact Option.filter_some_neg (by simp)
  unfold arriving?
  rw [hfilter, Option.bind_none]

/-- A sending through a peer that no session holds reaches every session that is attached. -/
theorem hearing_eq_told {peer : Nat} {t : Node} {m : Member} (h : r.isHeld peer = false)
    (hm : r.member? name = some m) : hearing peer t m = told t m := by
  unfold hearing told
  cases ha : m.attachment with
  | none => rfl
  | some a => rw [Option.map_some, Option.map_some,
      if_neg (place?_of_not_isHeld h (place?_eq hm ha))]

/-- A step that leaves a session as it is. -/
theorem eq_map_of_unchanged {after : Room} (hsame : after.member? name = r.member? name)
    (hown : ∀ m, own name y m = m) (hsilent : r.sending? y = none) :
    after.member? name
      = (r.member? name).map fun m => hears (r.arriving? name y) (own name y m) := by
  rw [hsame, arriving?_of_sending? hsilent]
  cases r.member? name with
  | none => rfl
  | some m => exact congrArg some (hown m).symm

/-- An operation of which nobody is told is the session's own affair. -/
theorem member?_perform_self {m : Member} (h : r.member? name = some m) {op : Session.Op}
    (hquiet : (m.session.perform op).announced = false ∨ m.attachment = none) :
    (r.perform name op).1.member? name = some { m with session := (m.session.perform op).session } := by
  have hafter : (r.perform name op).1
      = r.update name fun _ => { m with session := (m.session.perform op).session } := by
    rw [perform_of_member? h]
    dsimp only
    split
    · next hannounced =>
      rcases hquiet with hquiet | hquiet
      · rw [hquiet] at hannounced
        cases hannounced
      · exact announce_of_none hquiet
    · rfl
  rw [hafter, member?_update_self h]

/-- **An operation, for any session.** -/
theorem member?_step_perform (hs : r.Sound) {other : String} {op : Session.Op}
    (harrives : ∀ s, r.sending? (.perform other op) = some s → ∃ t, Message.carried? s.tree = some t) :
    (r.step (.perform other op)).member? name
      = (r.member? name).map fun m =>
        hears (r.arriving? name (.perform other op)) (own name (.perform other op) m) := by
  have hself : ∀ m, own other (.perform other op) m
      = { m with session := (m.session.perform op).session } := fun m => if_pos rfl
  have hothers : other ≠ name → ∀ m, own name (.perform other op) m = m := fun h m => if_neg h
  cases hm : r.member? other with
  | none =>
    have hsilent : r.sending? (.perform other op) = none := by
      rw [sending?, hm]
      rfl
    have hstep : r.step (.perform other op) = r := by
      show (r.perform other op).1 = r
      unfold perform
      rw [hm]
    rw [hstep]
    by_cases hother : other = name
    · rw [← hother, hm]
      rfl
    · exact eq_map_of_unchanged rfl (hothers hother) hsilent
  | some m =>
    -- it is heard if it is announced, and the session is attached
    by_cases hloud : (m.session.perform op).announced = true ∧ m.attachment.isSome = true
    · obtain ⟨hannounced, hattached⟩ := hloud
      obtain ⟨a, ha⟩ := Option.isSome_iff_exists.1 hattached
      have hsent : r.sending? (.perform other op)
          = some ⟨some other, (m.session.perform op).session.tree⟩ := by
        rw [sending?, hm, Option.bind_some, hannounced, hattached]
        rfl
      obtain ⟨t, ht⟩ := harrives _ hsent
      obtain ⟨hown, hsends⟩ := member?_perform_of_announced hs hm ha hannounced ht
      by_cases hother : other = name
      · subst hother
        rw [arriving?_of_self hsent, hm, Option.map_some, hself, ha]
        exact hown
      · have harriving : r.arriving? name (.perform other op) = some t :=
          (arriving?_of_ne hsent fun h => hother (Option.some.inj h)).trans ht
        rw [harriving]
        refine (hsends (Ne.symm hother)).trans ?_
        exact congrArg (Option.map · _) (funext fun m => congrArg (told t) (hothers hother m).symm)
    · have hsilent : r.sending? (.perform other op) = none := by
        rw [sending?, hm, Option.bind_some, if_neg (by rwa [Bool.and_eq_true])]
      have hquiet : (m.session.perform op).announced = false ∨ m.attachment = none := by
        rw [not_and_or, Bool.not_eq_true, Bool.not_eq_true, Option.isSome_eq_false_iff,
          Option.isNone_iff_eq_none] at hloud
        exact hloud
      by_cases hother : other = name
      · subst hother
        rw [arriving?_of_sending? hsilent, hm, Option.map_some, hself]
        exact member?_perform_self hm hquiet
      · exact eq_map_of_unchanged (member?_perform_of_quiet hm hquiet (Ne.symm hother))
          (hothers hother) hsilent

/-- **A sending, for any session.** -/
theorem member?_step_send (hs : r.Sound) {peer : Nat} {t : Node}
    (harrives : ∀ s, r.sending? (.send peer t) = some s → ∃ t, Message.carried? s.tree = some t) :
    (r.step (.send peer t)).member? name
      = (r.member? name).map fun m => hears (r.arriving? name (.send peer t)) m := by
  -- a session has the peer, the peer is closed, or the tree goes out
  cases hheld : r.isHeld peer with
  | true =>
    have hsilent : r.sending? (.send peer t) = none := by
      rw [sending?, hheld]
      rfl
    rw [step, if_pos hheld]
    exact eq_map_of_unchanged rfl (fun _ => rfl) hsilent
  | false =>
    rw [step, if_neg (by rw [hheld]; exact Bool.false_ne_true)]
    cases hopen : r.hub.isOpen peer with
    | false =>
      have hsilent : r.sending? (.send peer t) = none := by
        rw [sending?, hheld, hopen]
        rfl
      have hclosed : r.send peer t = r := by
        unfold Room.send Hub.broadcast
        rw [hopen]
        rfl
      rw [hclosed]
      exact eq_map_of_unchanged rfl (fun _ => rfl) hsilent
    | true =>
      have hsent : r.sending? (.send peer t) = some ⟨none, t⟩ := by
        rw [sending?, hheld, hopen]
        rfl
      obtain ⟨t', ht'⟩ := harrives _ hsent
      have harriving : r.arriving? name (.send peer t) = some t' :=
        (arriving?_of_ne hsent (by simp)).trans ht'
      rw [member?_send hs hopen ht', harriving]
      cases hm : r.member? name with
      | none => rfl
      | some m =>
        rw [Option.map_some, Option.map_some, hearing_eq_told hheld hm]
        rfl

/-- **One step, for a session that does not move.** -/
theorem member?_step (hs : r.Sound)
    (harrives : ∀ s, r.sending? y = some s → ∃ t, Message.carried? s.tree = some t)
    (hy : y.moves name = false) :
    (r.step y).member? name
      = (r.member? name).map fun m => hears (r.arriving? name y) (own name y m) := by
  -- a step of another session changes nothing here but what arrives
  cases y with
  | enter other tree templates =>
    have hne : other ≠ name := beq_eq_false_iff_ne.1 hy
    refine eq_map_of_unchanged ?_ (fun _ => rfl) rfl
    show Entries.get? (Entries.put r.members other _) name = _
    rw [Entries.get?_put, if_neg hne]
    rfl
  | connect => exact eq_map_of_unchanged rfl (fun _ => rfl) rfl
  | attach other peer =>
    have hne : other ≠ name := beq_eq_false_iff_ne.1 hy
    refine eq_map_of_unchanged ?_ (fun _ => rfl) rfl
    rw [step]
    split
    · rfl
    · split
      · next after hattach =>
        unfold Room.attach at hattach
        split at hattach
        · cases hattach
        · rw [← Except.ok.inj hattach, member?_update_ne _ (Ne.symm hne)]
          rfl
      · rfl
  | detach other =>
    have hne : other ≠ name := beq_eq_false_iff_ne.1 hy
    exact eq_map_of_unchanged (member?_update_ne _ (Ne.symm hne) _) (fun _ => rfl) rfl
  | close peer =>
    refine eq_map_of_unchanged ?_ (fun _ => rfl) rfl
    rw [step]
    split <;> rfl
  | send peer t => exact member?_step_send hs harrives
  | pull other =>
    have hpull : (r.step (.pull other)).member? name
        = if other = name then (r.member? name).map pulled else r.member? name :=
      member?_update r other name pulled
    by_cases hother : other = name
    · have hown : own name (.pull other) = pulled := funext fun m => if_pos hother
      rw [hpull, if_pos hother, hown]
      rfl
    · rw [if_neg hother] at hpull
      exact eq_map_of_unchanged hpull (fun m => if_neg hother) rfl
  | perform other op => exact member?_step_perform hs harrives

/-! ## Inboxes -/

/-- **The inbox** of a session that is attached. -/
def inbox? (r : Room) (name : String) : Option (Option Node) :=
  ((r.member? name).bind (·.attachment)).map (·.inbox)

/-- There is an inbox where a session is attached. -/
theorem inbox?_eq_some_iff {x : Option Node} : r.inbox? name = some x ↔
    ∃ m a, r.member? name = some m ∧ m.attachment = some a ∧ a.inbox = x := by
  unfold inbox?
  simp only [Option.map_eq_some_iff, Option.bind_eq_some_iff]
  constructor
  · rintro ⟨a, ⟨m, hm, ha⟩, hx⟩
    exact ⟨m, a, hm, ha, hx⟩
  · rintro ⟨m, a, hm, ha, hx⟩
    exact ⟨a, ⟨m, hm, ha⟩, hx⟩

/-- Steps, each with the room in which it is taken. -/
def trace (r : Room) : List Step → List (Room × Step)
  | [] => []
  | y :: steps => (r, y) :: (r.step y).trace steps

/-- **What is sent** along a trace. -/
def sent (events : List (Room × Step)) : List Sending :=
  events.filterMap fun e => e.1.sending? e.2

/-- The last step is taken after the others. -/
theorem run_concat (r : Room) (steps : List Step) (y : Step) :
    r.run (steps ++ [y]) = (r.run steps).step y := by
  unfold run
  rw [List.foldl_append]
  rfl

/-- **A session that waits** with a tree in its inbox. -/
def Waits (r : Room) (name : String) (t : Node) : Prop := r.inbox? name = some (some t)

/-- **A session that holds** a tree and waits for none. -/
def Holds (r : Room) (name : String) (t : Node) : Prop :=
  ∃ m a, r.member? name = some m ∧ m.attachment = some a ∧ a.inbox = none ∧ m.session.tree = t

/-- Steps that take a session away from its place, or put a tree in its place that nobody sent. -/
def Step.disturbs (name : String) : Step → Bool
  | .perform other (.adopt _) => other == name
  | y => y.moves name

/-- A step that does not disturb a session does not move it. -/
theorem moves_of_disturbs (h : y.disturbs name = false) : y.moves name = false := by
  cases y with
  | perform => rfl
  | _ => exact h

/-- A step that sends nothing, for a session that it leaves in its place. -/
theorem member?_step_of_silent (hs : r.Sound) (hsilent : r.sending? y = none)
    (hy : y.disturbs name = false) {m : Member} (hm : r.member? name = some m) :
    (r.step y).member? name = some (own name y m) := by
  have harrives : ∀ s, r.sending? y = some s → ∃ t, Message.carried? s.tree = some t := by
    intro s h
    rw [hsilent] at h
    cases h
  rw [member?_step hs harrives (moves_of_disturbs hy), hm, arriving?_of_sending? hsilent]
  rfl

/-- What an attached session does to itself when it tells nobody: it keeps its place, its inbox and its
tree, unless it pulls. -/
theorem own_of_silent (hsilent : r.sending? y = none) (hy : y.disturbs name = false) {m : Member}
    (hm : r.member? name = some m) (ha : m.attachment.isSome = true) (hpull : y ≠ .pull name) :
    (own name y m).attachment = m.attachment ∧ (own name y m).session.tree = m.session.tree := by
  cases y with
  | enter | connect | attach | detach | close | send => exact ⟨rfl, rfl⟩
  | pull other =>
    rw [own, if_neg fun hother => hpull (congrArg _ hother)]
    exact ⟨rfl, rfl⟩
  | perform other op =>
    -- an operation of its own that announces nothing leaves the tree
    by_cases hother : other = name
    · subst hother
      have hquiet : (m.session.perform op).announced = false := by
        rw [sending?, hm, Option.bind_some, ha, Bool.and_true] at hsilent
        split at hsilent
        · cases hsilent
        · next h => exact Bool.not_eq_true _ ▸ h
      have hop : ∀ t, op ≠ .adopt t := by
        rintro t rfl
        rw [Step.disturbs, beq_self_eq_true] at hy
        cases hy
      rw [own, if_pos rfl]
      exact ⟨rfl, Session.tree_perform_of_not_announced hquiet hop⟩
    · rw [own, if_neg hother]
      exact ⟨rfl, rfl⟩

variable {t : Node}

/-- **A session that holds a tree** goes on to hold it while nothing is sent. -/
theorem Holds.step (h : r.Holds name t) (hs : r.Sound) (hsilent : r.sending? y = none)
    (hy : y.disturbs name = false) : (r.step y).Holds name t := by
  obtain ⟨m, a, hm, ha, hinbox, htree⟩ := h
  have hafter := member?_step_of_silent hs hsilent hy hm
  by_cases hpull : y = .pull name
  · -- there is nothing to pull
    subst hpull
    have hown : own name (.pull name) m = m := by
      rw [own, if_pos rfl]
      unfold pulled
      split
      · next h =>
        rw [ha] at h
        rw [Option.some.inj h] at hinbox
        cases hinbox
      · rfl
    rw [hown] at hafter
    exact ⟨m, a, hafter, ha, hinbox, htree⟩
  · obtain ⟨hplace, hkept⟩ := own_of_silent hsilent hy hm (by rw [ha]; rfl) hpull
    exact ⟨_, a, hafter, hplace.trans ha, hinbox, hkept.trans htree⟩

/-- **A session that waits with a tree** goes on to wait while nothing is sent, until it pulls. -/
theorem Waits.step (h : r.Waits name t) (hs : r.Sound) (hsilent : r.sending? y = none)
    (hy : y.disturbs name = false) (hpull : y ≠ .pull name) : (r.step y).Waits name t := by
  obtain ⟨m, a, hm, ha, hinbox⟩ := inbox?_eq_some_iff.1 h
  obtain ⟨hplace, -⟩ := own_of_silent hsilent hy hm (by rw [ha]; rfl) hpull
  exact inbox?_eq_some_iff.2
    ⟨_, a, member?_step_of_silent hs hsilent hy hm, hplace.trans ha, hinbox⟩

/-- **A session that pulls** holds what it waited with. -/
theorem Waits.pull (h : r.Waits name t) (hs : r.Sound) : (r.step (.pull name)).Holds name t := by
  obtain ⟨m, ⟨peer, l, _⟩, hm, ha, rfl⟩ := inbox?_eq_some_iff.1 h
  have hafter := member?_step_of_silent (y := .pull name) hs rfl rfl hm
  rw [own, if_pos rfl] at hafter
  have hpulled : pulled m = ⟨m.session.withTree t, some ⟨peer, l, none⟩⟩ := by
    unfold pulled
    rw [ha]
    rfl
  rw [hpulled] at hafter
  exact ⟨_, _, hafter, rfl, rfl, rfl⟩

/-- A session holds its tree while nobody sends and nothing disturbs it. -/
theorem Holds.run (h : r.Holds name t) (hs : r.Sound) {steps : List Step}
    (hsilent : sent (r.trace steps) = []) (hsteps : ∀ y ∈ steps, y.disturbs name = false) :
    (r.run steps).Holds name t := by
  induction steps generalizing r with
  | nil => exact h
  | cons y steps ih =>
    obtain ⟨hy, hsteps⟩ := List.forall_mem_cons.1 hsteps
    obtain ⟨hsending, hrest⟩ := List.forall_mem_cons.1 (List.filterMap_eq_nil_iff.1 hsilent)
    exact ih (h.step hs hsending hy) (sound_step hs y) (List.filterMap_eq_nil_iff.2 hrest) hsteps

/-- One that waits with a tree holds it once it has pulled. -/
theorem Waits.run (h : r.Waits name t) (hs : r.Sound) {steps : List Step}
    (hsilent : sent (r.trace steps) = []) (hsteps : ∀ y ∈ steps, y.disturbs name = false)
    (hpull : .pull name ∈ steps) : (r.run steps).Holds name t := by
  induction steps generalizing r with
  | nil => cases hpull
  | cons y steps ih =>
    obtain ⟨hy, hlater⟩ := List.forall_mem_cons.1 hsteps
    obtain ⟨hsending, hrest⟩ := List.forall_mem_cons.1 (List.filterMap_eq_nil_iff.1 hsilent)
    have hrest' : sent ((r.step y).trace steps) = [] := List.filterMap_eq_nil_iff.2 hrest
    by_cases hy' : y = .pull name
    · subst hy'
      exact (h.pull hs).run (sound_step hs _) hrest' hlater
    · have hpull' : .pull name ∈ steps := (List.mem_cons.1 hpull).resolve_left (Ne.symm hy')
      exact ih (h.step hs hsending hy hy') (sound_step hs y) hrest' hlater hpull'

/-! ## What is pending -/

theorem run_append (r : Room) (before after : List Step) :
    r.run (before ++ after) = (r.run before).run after := List.foldl_append

end Room
end PageBuilder
