/-
  What a step in a room does to the places of its sessions on the hub.

  Programs:       `place?` — peer and listener of a session; `hearing` — a member after a sending.
  Specification:  `sound_run` — after any run a session that is attached listens at a peer of its own;
                  `member?_send` — what is sent through a peer is put into the inbox of every session
                  that is attached through another one, and nothing else happens.
  Crux:           `Sound` — a step that gives up a peer gives up the place at it, and a place is given
                  at a peer that no other session holds.
-/
import PageBuilder.Proofs.Sync.Hub
import PageBuilder.Session.Room

namespace PageBuilder.Room

variable {r : Room} {name : String}

/-! ## Members -/

theorem member?_update (r : Room) (name other : String) (f : Member → Member) :
    (r.update name f).member? other
      = if name = other then (r.member? other).map f else r.member? other :=
  Entries.get?_modify ..

theorem member?_update_ne (r : Room) {other : String} (h : other ≠ name) (f : Member → Member) :
    (r.update name f).member? other = r.member? other := by
  rw [member?_update, if_neg (Ne.symm h)]

theorem member?_update_self {m : Member} (h : r.member? name = some m) (f : Member → Member) :
    (r.update name f).member? name = some (f m) := by
  rw [member?_update, if_pos rfl, h, Option.map_some]

/-! ## Places on the hub -/

/-- **Peer and listener** of a session that is attached. -/
def place? (r : Room) (name : String) : Option (Nat × Nat) :=
  ((r.member? name).bind (·.attachment)).map fun a => (a.peer, a.listener)

/-- A session that is attached has a place. -/
theorem place?_of_attachment {a : Attachment}
    (ha : (r.member? name).bind (·.attachment) = some a) :
    r.place? name = some (a.peer, a.listener) := by
  unfold place?
  rw [ha, Option.map_some]

theorem place?_eq {m : Member} {a : Attachment} (h : r.member? name = some m)
    (ha : m.attachment = some a) : r.place? name = some (a.peer, a.listener) :=
  place?_of_attachment (by rw [h, Option.bind_some, ha])

/-- **Another place** for a session, or none. -/
theorem place?_moved (r : Room) (g : Hub) (name : String) (x : Option Attachment) (other : String) :
    (({ r with hub := g } : Room).update name fun m => { m with attachment := x }).place? other
      = if other = name then (r.member? name).bind fun _ => x.map fun a => (a.peer, a.listener)
        else r.place? other := by
  unfold place?
  rw [member?_update]
  show Option.map _ (Option.bind (if name = other then (r.member? other).map _ else _) _) = _
  by_cases hother : other = name
  · rw [if_pos hother, if_pos hother.symm, hother]
    cases r.member? name <;> rfl
  · rw [if_neg hother, if_neg (Ne.symm hother)]
    rfl

/-- A change of members that stay where they are. -/
theorem place?_update {f : Member → Member}
    (hf : ∀ m, (f m).attachment.map (fun a => (a.peer, a.listener))
      = m.attachment.map fun a => (a.peer, a.listener)) (other : String) :
    (r.update name f).place? other = r.place? other := by
  unfold place?
  rw [member?_update]
  split
  · cases r.member? other with
    | none => rfl
    | some m => exact hf m
  · rfl

/-- A peer that no session holds is the place of none. -/
theorem place?_of_not_isHeld {peer p l : Nat} (h : r.isHeld peer = false)
    (hplace : r.place? name = some (p, l)) : p ≠ peer := by
  rintro rfl
  obtain ⟨a, ha, hpl⟩ := Option.map_eq_some_iff.1 hplace
  obtain ⟨m, hm, hma⟩ := Option.bind_eq_some_iff.1 ha
  have hheld : r.isHeld p = true := by
    refine List.any_eq_true.2 ⟨(name, m), Entries.mem_of_get? hm, ?_⟩
    rw [hma]
    exact beq_iff_eq.2 (Prod.mk.inj hpl).1
  rw [h] at hheld
  nomatch hheld

/-! ## Rooms in order -/

/-- **A room in order**: a session that is attached listens at its peer, and no two sessions have one
peer. -/
structure Sound (r : Room) : Prop where
  hub : r.hub.Sound
  listens : ∀ {name p l}, r.place? name = some (p, l) → l ∈ r.hub.listeners p
  apart : ∀ {name other p l k}, r.place? name = some (p, l) → r.place? other = some (p, k) →
    name = other

/-- An empty room is in order. -/
theorem sound_empty : empty.Sound := by
  refine ⟨Hub.sound_empty, ?_, ?_⟩
  · intro name p l h
    nomatch h
  · intro name other p l k h
    nomatch h

/-- Places are all that matters, and the hub. -/
theorem Sound.congr {after : Room} (hs : r.Sound) (hhub : after.hub = r.hub)
    (hplace : ∀ other, after.place? other = r.place? other) : after.Sound := by
  refine ⟨hhub ▸ hs.hub, ?_, ?_⟩
  · intro name p l h
    rw [hhub]
    exact hs.listens (hplace name ▸ h)
  · intro name other p l k h h'
    exact hs.apart (hplace name ▸ h) (hplace other ▸ h')

/-- Another hub at which all sessions listen as before. -/
theorem Sound.hub_congr {g : Hub} (hs : r.Sound) (hg : g.Sound)
    (hlistens : ∀ {name p l}, r.place? name = some (p, l) → l ∈ g.listeners p) :
    Sound { r with hub := g } := ⟨hg, hlistens, hs.apart⟩

/-- **A session gives up its place**: the others listen as before. -/
theorem Sound.leave {after : Room} (hs : r.Sound) (hhub : after.hub.Sound)
    (hlistens : ∀ {other p l}, other ≠ name → r.place? other = some (p, l) →
      l ∈ after.hub.listeners p)
    (hplace : ∀ {other p l}, after.place? other = some (p, l) →
      other ≠ name ∧ r.place? other = some (p, l)) : after.Sound := by
  refine ⟨hhub, ?_, ?_⟩
  · intro other p l h
    obtain ⟨hne, h⟩ := hplace h
    exact hlistens hne h
  · intro other another p l k h h'
    exact hs.apart (hplace h).2 (hplace h').2

/-- **A session takes a place**, at a peer that no session has. -/
theorem Sound.settle {after : Room} {peer l : Nat} (hs : r.Sound) (hhub : after.hub.Sound)
    (hl : l ∈ after.hub.listeners peer)
    (hlistens : ∀ {other p k}, other ≠ name → r.place? other = some (p, k) →
      k ∈ after.hub.listeners p)
    (hfree : ∀ {other p k}, r.place? other = some (p, k) → p ≠ peer)
    (hplace : ∀ {other p k}, after.place? other = some (p, k) →
      (other = name ∧ p = peer ∧ k = l) ∨ (other ≠ name ∧ r.place? other = some (p, k))) :
    after.Sound := by
  refine ⟨hhub, ?_, ?_⟩
  · intro other p k h
    rcases hplace h with ⟨-, rfl, rfl⟩ | ⟨hne, h⟩
    · exact hl
    · exact hlistens hne h
  · -- of two sessions at one peer, either both moved or neither did
    intro other another p k k' h h'
    rcases hplace h with ⟨rfl, hp, -⟩ | ⟨hne, h⟩
    · rcases hplace h' with ⟨rfl, -, -⟩ | ⟨-, h'⟩
      · rfl
      · exact absurd hp (hfree h')
    · rcases hplace h' with ⟨-, hp, -⟩ | ⟨-, h'⟩
      · exact absurd hp (hfree h)
      · exact hs.apart h h'

/-- A session that stays where it is. -/
theorem Sound.update_session {m : Member} (hs : r.Sound) (hm : r.member? name = some m)
    (s : Session) : (r.update name fun _ => { m with session := s }).Sound := by
  refine hs.congr rfl fun other => ?_
  unfold place?
  rw [member?_update]
  split
  · next hother =>
    rw [← hother, hm]
    rfl
  · rfl

/-! ## Coming and going -/

/-- Who listens at another peer stays when a member goes. -/
theorem mem_listeners_hubWithout {p l : Nat} (hh : r.hub.Sound)
    (hne : ∀ a, (r.member? name).bind (·.attachment) = some a → p ≠ a.peer)
    (hl : l ∈ r.hub.listeners p) : l ∈ (r.hubWithout (r.member? name)).listeners p := by
  unfold Room.hubWithout
  cases ha : (r.member? name).bind (·.attachment) with
  | none => exact hl
  | some a =>
    rw [hh.listeners_close, if_neg (hne a ha)]
    exact hl

theorem sound_hubWithout (hh : r.hub.Sound) (m : Option Member) : (r.hubWithout m).Sound := by
  unfold Room.hubWithout
  split
  · exact hh.close _
  · exact hh

/-- No other session is at the peer of a session. -/
theorem Sound.ne_peer {other : String} {p l : Nat} (hs : r.Sound) (hne : other ≠ name)
    (hplace : r.place? other = some (p, l)) {a : Attachment}
    (ha : (r.member? name).bind (·.attachment) = some a) : p ≠ a.peer := by
  rintro rfl
  exact hne (hs.apart hplace (place?_of_attachment ha))

/-- The others listen as before when a member goes. -/
theorem Sound.listens_hubWithout {other : String} {p l : Nat} (hs : r.Sound) (hne : other ≠ name)
    (hplace : r.place? other = some (p, l)) :
    l ∈ (r.hubWithout (r.member? name)).listeners p :=
  mem_listeners_hubWithout hs.hub (fun _ ha => hs.ne_peer hne hplace ha) (hs.listens hplace)

/-- A session that comes is not attached. -/
theorem Sound.enter (hs : r.Sound) (name : String) (s : Session) : (r.enter name s).Sound := by
  refine hs.leave (sound_hubWithout hs.hub _) hs.listens_hubWithout ?_
  intro other p l h
  unfold place? member? Room.enter at h
  dsimp only at h
  rw [Entries.get?_put] at h
  split at h
  · cases h
  · next hne => exact ⟨Ne.symm hne, h⟩

/-- A session that leaves its place gives up its subscription. -/
theorem Sound.detach (hs : r.Sound) (name : String) : (r.detach name).Sound := by
  have hplace : ∀ {g : Hub} {other p l}, (({ r with hub := g } : Room).update name
      fun m => { m with attachment := none }).place? other = some (p, l) →
        other ≠ name ∧ r.place? other = some (p, l) := by
    intro g other p l h
    rw [place?_moved] at h
    split at h
    · obtain ⟨m, -, h⟩ := Option.bind_eq_some_iff.1 h
      nomatch h
    · next hne => exact ⟨hne, h⟩
  unfold Room.detach
  -- one that was not attached leaves nothing behind
  cases ha : (r.member? name).bind (·.attachment) with
  | none => exact hs.leave hs.hub (fun _ h => hs.listens h) hplace
  | some a =>
    refine hs.leave (hs.hub.unsubscribe a.peer a.listener) ?_ hplace
    intro other p l hne h
    show l ∈ (r.hub.unsubscribe a.peer a.listener).listeners p
    rw [Hub.listeners_unsubscribe, if_neg (hs.ne_peer hne h ha)]
    exact hs.listens h

/-- **A session that takes a place** listens at a peer that was free. -/
theorem Sound.attach {after : Room} {peer : Nat} (hs : r.Sound) (hfree : r.isHeld peer = false)
    (hattach : r.attach name peer = .ok after) : after.Sound := by
  unfold Room.attach at hattach
  split at hattach
  · nomatch hattach
  · next g l hsub =>
    obtain rfl := Except.ok.inj hattach
    obtain ⟨-, -, -, hlisteners⟩ := Hub.subscribe_spec hsub
    -- first there is one more listener, then the old peer goes and the new place is taken
    have hone : Sound { r with hub := g } := by
      refine hs.hub_congr (hs.hub.subscribe hsub) fun h => ?_
      rw [hlisteners]
      split
      · exact List.mem_append_left _ (hs.listens h)
      · exact hs.listens h
    have hnew : l ∈ g.listeners peer := by
      rw [hlisteners, if_pos rfl]
      exact List.mem_append_right _ (List.mem_singleton_self l)
    refine hone.settle (sound_hubWithout hone.hub _)
      (mem_listeners_hubWithout hone.hub (fun a ha => ?_) hnew) hone.listens_hubWithout
      (place?_of_not_isHeld hfree) ?_
    · exact Ne.symm (place?_of_not_isHeld hfree (place?_of_attachment (r := r) ha))
    · intro other p k h
      rw [place?_moved] at h
      split at h
      · next hother =>
        obtain ⟨m, -, h⟩ := Option.bind_eq_some_iff.1 h
        obtain ⟨rfl, rfl⟩ := Prod.mk.inj (Option.some.inj h)
        exact Or.inl ⟨hother, rfl, rfl⟩
      · next hne => exact Or.inr ⟨hne, h⟩

/-! ## Sending -/

/-- **A member after a sending** through a peer. -/
def hearing (peer : Nat) (t : Node) (m : Member) : Member :=
  { m with attachment := m.attachment.map fun a =>
      if a.peer = peer then a else { a with inbox := some t } }

/-- Sending moves nobody. -/
theorem place?_send (peer : Nat) (t : Node) (other : String) :
    (r.send peer t).place? other = r.place? other := by
  unfold send
  split
  · unfold place? member?
    dsimp only
    rw [Entries.get?_map]
    cases Entries.get? r.members other with
    | none => rfl
    | some m =>
      rw [Option.map_some, Option.bind_some, Option.bind_some]
      unfold receive
      cases m.attachment with
      | none => rfl
      | some a =>
        rw [Option.map_some, Option.map_some, Option.map_some]
        split <;> rfl
  · rfl

theorem hub_send (peer : Nat) (t : Node) : (r.send peer t).hub = r.hub := by
  unfold send
  split <;> rfl

theorem Sound.send (hs : r.Sound) (peer : Nat) (t : Node) : (r.send peer t).Sound :=
  hs.congr (hub_send peer t) (place?_send peer t)

/-- What hears a sending, by its listener and by its peer. -/
theorem receive_eq_hearing {peer : Nat} {t : Node} {m : Member} {heard : List Nat}
    (h : ∀ a, m.attachment = some a → (a.listener ∈ heard ↔ a.peer ≠ peer)) :
    receive heard t m = hearing peer t m := by
  unfold receive hearing
  cases ha : m.attachment with
  | none => rfl
  | some a =>
    rw [Option.map_some, Option.map_some]
    have hiff := h a ha
    by_cases hpeer : a.peer = peer
    · have hnot : a.listener ∉ heard := fun hmem => hiff.1 hmem hpeer
      rw [if_pos hpeer, if_neg (by simpa using hnot)]
    · have hmem : a.listener ∈ heard := hiff.2 hpeer
      rw [if_neg hpeer, if_pos (List.contains_iff_mem.2 hmem)]

/-- **What a sending does**: every session that is attached through another peer has the tree in its
inbox as it arrives, and all else stays. -/
theorem member?_send {peer : Nat} {t t' : Node} (hs : r.Sound) (hopen : r.hub.isOpen peer = true)
    (ht : Message.carried? t = some t') (other : String) :
    (r.send peer t).member? other = (r.member? other).map (hearing peer t') := by
  have hheard : ∀ {m : Member} {a : Attachment} {t : Option Node}, r.member? other = some m →
      m.attachment = some a →
      (a.listener ∈ r.hub.heard ⟨r.hub.others peer, t⟩ ↔ a.peer ≠ peer) := by
    intro m a t hm ha
    exact hs.hub.mem_heard_iff (hs.listens (place?_eq hm ha))
  cases hothers : r.hub.others peer with
  | nil =>
    -- nobody else is on the hub, so nobody hears anything
    have hsame : r.send peer t = r := by
      unfold Room.send Hub.broadcast
      rw [hopen, hothers]
      rfl
    rw [hsame]
    cases hm : r.member? other with
    | none => rfl
    | some m =>
      have hempty : receive [] t' m = hearing peer t' m := by
        refine receive_eq_hearing fun a ha => ?_
        have hiff : a.listener ∈ r.hub.heard ⟨r.hub.others peer, none⟩ ↔ a.peer ≠ peer :=
          hheard hm ha
        rw [hothers] at hiff
        exact hiff
      rw [Option.map_some, ← hempty]
      unfold receive
      cases m with
      | mk session attachment => cases attachment <;> rfl
  | cons p ps =>
    have hsent : r.send peer t = { r with members := r.members.map fun e =>
        (e.1, receive (r.hub.heard ⟨r.hub.others peer, some t'⟩) t' e.2) } := by
      unfold Room.send Hub.broadcast
      rw [hopen, hothers, ht]
      rfl
    rw [hsent]
    show Entries.get? (r.members.map _) other = _
    rw [Entries.get?_map]
    cases hm : Entries.get? r.members other with
    | none =>
      rw [show r.member? other = none from hm]
      rfl
    | some m =>
      rw [show r.member? other = some m from hm, Option.map_some, Option.map_some,
        receive_eq_hearing fun a ha => hheard hm ha]

/-! ## Steps and runs -/

theorem Sound.announce (hs : r.Sound) (m : Member) : (r.announce m).Sound := by
  unfold Room.announce
  split
  · exact hs
  · exact hs.send _ _

/-- **One step** keeps a room in order. -/
theorem sound_step (hs : r.Sound) (x : Step) : (r.step x).Sound := by
  -- a peer that a session holds is not closed, and none but its own sends through it
  cases x with
  | enter name tree templates => exact hs.enter name _
  | connect =>
    refine hs.hub_congr hs.hub.connect fun h => ?_
    rw [hs.hub.listeners_connect]
    exact hs.listens h
  | attach name peer =>
    rw [step]
    split
    · exact hs
    · next hheld =>
      split
      · next after hattach => exact hs.attach (Bool.eq_false_iff.2 hheld) hattach
      · exact hs
  | detach name => exact hs.detach name
  | close peer =>
    rw [step]
    split
    · exact hs
    · next hheld =>
      refine hs.hub_congr (hs.hub.close peer) fun h => ?_
      have hne := place?_of_not_isHeld (Bool.eq_false_iff.2 hheld) h
      rw [hs.hub.listeners_close, if_neg hne]
      exact hs.listens h
  | send peer t =>
    rw [step]
    split
    · exact hs
    · exact hs.send peer t
  | pull name =>
    refine hs.congr rfl (place?_update fun m => ?_)
    split
    · next hinbox =>
      rw [hinbox]
      rfl
    · rfl
  | perform name op =>
    show (r.perform name op).1.Sound
    unfold perform
    split
    · exact hs
    · next m hm =>
      have hafter := hs.update_session hm (m.session.perform op).session
      dsimp only
      split
      · exact hafter.announce _
      · exact hafter

/-- **Every run keeps a room in order.** -/
theorem sound_run (hs : r.Sound) (steps : List Step) : (r.run steps).Sound := by
  induction steps generalizing r with
  | nil => exact hs
  | cons x steps ih => exact ih (sound_step hs x)

end PageBuilder.Room
