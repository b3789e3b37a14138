/-
  Delivery: what a subscription has on record.

  Programs:       `Live` — a subscription that was made and has not ended; `reaching?` — the tree with
                  which a step reaches it.
  Specification:  `delivery_of_run` — the record of a subscription is what reached it from its making
                  to its end, in order, nothing lost and nothing twice; a step that fails changes
                  nothing, and one that succeeds tells how many it reached.
  Crux:           a listener has one peer and stands there once, so a sending reaches it once or not
                  at all; and its number never comes again, so what has ended stays ended.
-/
import Mathlib.Data.List.Induction
import PageBuilder.Proofs.Node.Text
import PageBuilder.Proofs.Sync.Hub
import PageBuilder.Sync.Reaction
import PageBuilder.Sync.Recording

namespace PageBuilder

/-! ## Listeners that stand once -/

namespace Hub

variable {h : Hub} {peer l : Nat}

/-- **No listener stands twice** at a peer. -/
def Distinct (h : Hub) : Prop := ∀ p, (h.listeners p).Nodup

theorem distinct_empty : empty.Distinct := fun _ => List.nodup_nil

theorem Distinct.connect (hd : h.Distinct) (hs : h.Sound) : h.connect.1.Distinct := by
  intro p
  rw [hs.listeners_connect]
  exact hd p

/-- A listener that is added has a new number. -/
theorem Distinct.subscribe {g : Hub} (hd : h.Distinct) (hs : h.Sound)
    (hsub : h.subscribe peer = .ok (g, l)) : g.Distinct := by
  obtain ⟨hl, -, -, hlisteners⟩ := subscribe_spec hsub
  intro p
  rw [hlisteners]
  split
  · -- the new number was never issued before
    refine (hd p).append (List.nodup_singleton l) (List.disjoint_singleton.2 fun hmem => ?_)
    have hle := hs.listeners hmem
    omega
  · exact hd p

/-- One that goes leaves the others distinct. -/
theorem Distinct.unsubscribe (hd : h.Distinct) (peer l : Nat) : (h.unsubscribe peer l).Distinct := by
  intro p
  rw [listeners_unsubscribe]
  split
  · exact (hd p).erase l
  · exact hd p

/-- A peer that closes takes its listeners along. -/
theorem Distinct.close (hd : h.Distinct) (hs : h.Sound) (peer : Nat) : (h.close peer).Distinct := by
  intro p
  rw [hs.listeners_close]
  split
  · exact List.nodup_nil
  · exact hd p

theorem nodup_others (hs : h.Sound) (peer : Nat) : (h.others peer).Nodup := hs.keys.filter _

/-- **A sending reaches nobody twice.** -/
theorem nodup_heard (hd : h.Distinct) (hs : h.Sound) (peer : Nat) (t : Option Node) :
    (h.heard ⟨h.others peer, t⟩).Nodup := by
  refine List.nodup_flatMap.2 ⟨fun p _ => hd p, (nodup_others hs peer).imp ?_⟩
  intro p q hne k hp hq
  exact hne (hs.once hp hq)

/-- **How a sending ends.** -/
theorem broadcast_cases (h : Hub) (peer : Nat) (n : Node) :
    (h.isOpen peer = false ∧ h.broadcast peer n = .error .closed) ∨
    (h.isOpen peer = true ∧ h.others peer = [] ∧ h.broadcast peer n = .ok ⟨[], none⟩) ∨
    (h.isOpen peer = true ∧ ∃ t, Message.carried? n = some t ∧
      h.broadcast peer n = .ok ⟨h.others peer, some t⟩) ∨
    (h.isOpen peer = true ∧ Message.carried? n = none ∧ h.broadcast peer n = .error .malformed) := by
  unfold broadcast
  cases hopen : h.isOpen peer with
  | false => exact Or.inl ⟨rfl, rfl⟩
  | true =>
    cases hothers : h.others peer with
    | nil => exact Or.inr (Or.inl ⟨rfl, rfl, rfl⟩)
    | cons p ps =>
      cases ht : Message.carried? n with
      | none => exact Or.inr (Or.inr (Or.inr ⟨rfl, rfl, rfl⟩))
      | some t => exact Or.inr (Or.inr (Or.inl ⟨rfl, t, rfl, rfl⟩))

/-- The other open peers are one less than all. -/
theorem length_others (hs : h.Sound) (hopen : h.isOpen peer = true) :
    (h.others peer).length = h.count - 1 := by
  have hmem : peer ∈ Entries.keys h.peers := isOpen_iff.1 hopen
  unfold others
  rw [← hs.keys.erase_eq_filter, List.length_erase_of_mem hmem]
  unfold Entries.keys count
  rw [List.length_map]

/-! ## Listeners that do nothing

  What is on record is what was heard when no listener acts on the hub, as long as there are jobs
  enough to run them all. -/

/-- A listener that only hears. -/
def silent : Reactions := fun _ _ => []

/-- Listeners run one after the other. -/
theorem run_listeners {t : Node} (fuel : Nat) (ls : List Nat) (jobs : List Job)
    (log : List (Nat × Node)) :
    Busy.run silent (fuel + ls.length) ⟨h, ls.map (.run · t) ++ jobs, log⟩
      = Busy.run silent fuel ⟨h, jobs, (ls.map (·, t)).reverse ++ log⟩ := by
  induction ls generalizing log with
  | nil => rfl
  | cons l ls ih =>
    have hlog : ((l :: ls).map (·, t)).reverse ++ log = (ls.map (·, t)).reverse ++ (l, t) :: log := by
      rw [List.map_cons, List.reverse_cons, List.append_assoc]
      rfl
    rw [hlog]
    exact ih ((l, t) :: log)

/-- Peers are told one after the other. -/
theorem run_peers {t : Node} (fuel : Nat) (ps : List Nat) (log : List (Nat × Node)) :
    Busy.run silent (fuel + (ps.flatMap h.listeners).length + ps.length)
        ⟨h, ps.map (.notify · t), log⟩
      = Busy.run silent fuel ⟨h, [], ((ps.flatMap h.listeners).map (·, t)).reverse ++ log⟩ := by
  induction ps generalizing log with
  | nil => rfl
  | cons p ps ih =>
    rw [List.flatMap_cons, List.length_append, List.map_append, List.reverse_append,
      List.append_assoc, ← ih (((h.listeners p).map (·, t)).reverse ++ log), ← run_listeners]
    have hfuel : fuel + ((h.listeners p).length + (ps.flatMap h.listeners).length)
        + (p :: ps).length
          = fuel + (ps.flatMap h.listeners).length + ps.length + (h.listeners p).length + 1 := by
      rw [List.length_cons]
      omega
    rw [hfuel]
    rfl

theorem run_idle (fuel : Nat) (log : List (Nat × Node)) :
    Busy.run silent fuel ⟨h, [], log⟩ = ⟨h, [], log⟩ := by
  cases fuel <;> rfl

/-- **A sending settles** in what its listeners are told. -/
theorem settle_jobsOf {r : Reached} (hjobs : (h.heard r).length + r.peers.length ≤ jobLimit) :
    h.settle silent (jobsOf r) = (h, h.told r) := by
  obtain ⟨ps, t⟩ := r
  cases t with
  | none =>
    unfold settle jobsOf
    rw [run_idle]
    rfl
  | some t =>
    obtain ⟨fuel, hfuel⟩ := Nat.exists_eq_add_of_le' hjobs
    have hrun := run_peers (h := h) (t := t) fuel ps []
    unfold settle jobsOf
    rw [hfuel]
    unfold heard
    dsimp only
    rw [← Nat.add_assoc, hrun, run_idle, List.append_nil]
    exact congrArg (h, ·) (List.reverse_reverse _)

/-- **A text that is handed over settles** in what the listeners are told. -/
theorem settle_listeners {ls : List Nat} (t : Node) (hjobs : ls.length ≤ jobLimit) :
    h.settle silent (ls.map (.run · t)) = (h, ls.map (·, t)) := by
  obtain ⟨fuel, hfuel⟩ := Nat.exists_eq_add_of_le' hjobs
  have hrun := run_listeners (h := h) (t := t) fuel ls [] []
  rw [List.append_nil] at hrun
  unfold settle
  rw [hfuel, hrun, run_idle, List.append_nil]
  exact congrArg (h, ·) (List.reverse_reverse _)

end Hub

namespace Recording

variable {s : Recording} {x : Subscription} {y : Step}

/-! ## What a step does -/

/-- What listeners hear of a step on a hub. -/
def hearing (h : Hub) : Step → List (Nat × Node)
  | .broadcast p n =>
    match h.broadcast p n with
    | .ok r => h.told r
    | .error _ => []
  | .deliver p raw =>
    match h.deliver p raw with
    | .ok (ls, t) => ls.map (·, t)
    | .error _ => []
  | _ => []

/-- A step adds what is heard of it. -/
theorem heard_step (s : Recording) (y : Step) :
    (s.step y).1.heard = s.heard ++ hearing s.hub y := by
  cases y with
  | connect | unsubscribe | close => exact (List.append_nil _).symm
  | subscribe p =>
    rw [step]
    split <;> exact (List.append_nil _).symm
  | broadcast p n =>
    rw [step, hearing]
    cases s.hub.broadcast p n with
    | ok r => rfl
    | error e => exact (List.append_nil _).symm
  | deliver p raw =>
    rw [step, hearing]
    cases s.hub.deliver p raw with
    | ok d => rfl
    | error e => exact (List.append_nil _).symm

/-- What is handed to a peer is heard by its listeners. -/
theorem mem_listeners_of_deliver {h : Hub} {p : Nat} {raw : String} {e : Nat × Node}
    (he : e ∈ hearing h (.deliver p raw)) : e.1 ∈ h.listeners p := by
  rw [hearing] at he
  split at he
  · next ls t hd =>
    unfold Hub.deliver at hd
    split at hd
    · cases hd
    · split at hd
      · obtain ⟨rfl, rfl⟩ := Prod.mk.inj (Except.ok.inj hd)
        obtain ⟨l, hl, rfl⟩ := List.mem_map.1 he
        exact hl
      · cases hd
  · cases he

/-- Whoever hears something listens at some peer. -/
theorem exists_mem_listeners {h : Hub} {e : Nat × Node} (he : e ∈ hearing h y) :
    ∃ p, e.1 ∈ h.listeners p := by
  cases y with
  | connect | subscribe | unsubscribe | close => cases he
  | broadcast p n =>
    rw [hearing] at he
    -- of the four outcomes of a broadcast only one is heard
    rcases h.broadcast_cases p n with ⟨-, hb⟩ | ⟨-, -, hb⟩ | ⟨-, t, -, hb⟩ | ⟨-, -, hb⟩
    · rw [hb] at he
      cases he
    · rw [hb] at he
      cases he
    · rw [hb] at he
      obtain ⟨l, hl, rfl⟩ := List.mem_map.1 he
      obtain ⟨q, -, hq⟩ := Hub.mem_heard_others.1 hl
      exact ⟨q, hq⟩
    · rw [hb] at he
      cases he
  | deliver p raw => exact ⟨p, mem_listeners_of_deliver he⟩

/-- **A step that fails** changes nothing. -/
theorem step_eq_self_of_error {e : SyncError} (h : (s.step y).2 = .error e) : (s.step y).1 = s := by
  cases y with
  | connect | unsubscribe | close => cases h
  | subscribe p | broadcast p n | deliver p raw =>
    rw [step] at h ⊢
    split
    · next heq =>
      rw [heq] at h
      cases h
    · rfl

/-- Sending and handing over leave the hub as it is. -/
theorem hub_step_broadcast (s : Recording) (p : Nat) (n : Node) :
    (s.step (.broadcast p n)).1.hub = s.hub := by
  rw [step]
  split <;> rfl

theorem hub_step_deliver (s : Recording) (p : Nat) (raw : String) :
    (s.step (.deliver p raw)).1.hub = s.hub := by
  rw [step]
  split <;> rfl

/-- **A new subscription.** -/
theorem subscribed_spec {p : Nat} (h : (s.step (.subscribe p)).2 = .ok (.subscribed x)) :
    p = x.peer ∧ ∃ g, s.hub.subscribe x.peer = .ok (g, x.listener) ∧
      (s.step (.subscribe p)).1 = { s with hub := g } := by
  rw [step] at h ⊢
  split at h
  · next g l hsub =>
    obtain rfl := Reply.subscribed.inj (Except.ok.inj h)
    exact ⟨rfl, g, hsub, rfl⟩
  · cases h

/-! ## Recordings in order -/

/-- **A recording in order**: the hub is, and whoever heard something has a number that was issued. -/
structure Sound (s : Recording) : Prop where
  hub : s.hub.Sound
  distinct : s.hub.Distinct
  issued : ∀ e ∈ s.heard, e.1 ≤ s.hub.issued

theorem sound_empty : empty.Sound := by
  refine ⟨Hub.sound_empty, Hub.distinct_empty, ?_⟩
  intro e he
  cases he

theorem le_issued_of_hearing (hs : s.hub.Sound) {e : Nat × Node} (he : e ∈ hearing s.hub y) :
    e.1 ≤ s.hub.issued := by
  obtain ⟨p, hp⟩ := exists_mem_listeners he
  exact hs.listeners hp

/-- No step takes numbers back. -/
theorem issued_le_step (s : Recording) (y : Step) : s.hub.issued ≤ (s.step y).1.hub.issued := by
  cases y with
  | connect => exact Nat.le_succ _
  | subscribe p =>
    rw [step]
    split
    · next g l hsub =>
      obtain ⟨hl, hissued, -, -⟩ := Hub.subscribe_spec hsub
      show s.hub.issued ≤ g.issued
      omega
    · exact Nat.le_refl _
  | unsubscribe x => exact Nat.le_refl _
  | close p => exact Nat.le_refl _
  | broadcast p n => rw [hub_step_broadcast]
  | deliver p raw => rw [hub_step_deliver]

/-- **One step** keeps a recording in order. -/
theorem sound_step (hs : s.Sound) (y : Step) : (s.step y).1.Sound := by
  -- neither sending nor handing over changes the hub
  have hhub : (s.step y).1.hub.Sound ∧ (s.step y).1.hub.Distinct := by
    cases y with
    | connect => exact ⟨hs.hub.connect, hs.distinct.connect hs.hub⟩
    | subscribe p =>
      rw [step]
      split
      · next hsub => exact ⟨hs.hub.subscribe hsub, hs.distinct.subscribe hs.hub hsub⟩
      · exact ⟨hs.hub, hs.distinct⟩
    | unsubscribe x => exact ⟨hs.hub.unsubscribe _ _, hs.distinct.unsubscribe _ _⟩
    | close p => exact ⟨hs.hub.close p, hs.distinct.close hs.hub p⟩
    | broadcast p n =>
      rw [hub_step_broadcast]
      exact ⟨hs.hub, hs.distinct⟩
    | deliver p raw =>
      rw [hub_step_deliver]
      exact ⟨hs.hub, hs.distinct⟩
  refine ⟨hhub.1, hhub.2, fun e he => Nat.le_trans ?_ (issued_le_step s y)⟩
  rw [heard_step] at he
  rcases List.mem_append.1 he with he | he
  · exact hs.issued e he
  · exact le_issued_of_hearing hs.hub he

/-- **Every run keeps a recording in order.** -/
theorem sound_run (hs : s.Sound) (steps : List Step) : (s.run steps).Sound := by
  induction steps generalizing s with
  | nil => exact hs
  | cons y steps ih => exact ih (sound_step hs y)

/-! ## The record of a listener -/

/-- What goes on a listener's record of what was heard. -/
def recordOf (listener : Nat) (heard : List (Nat × Node)) : List Node :=
  heard.filterMap fun e => if e.1 = listener then some e.2 else none

theorem record_step (s : Recording) (y : Step) (l : Nat) :
    (s.step y).1.record l = s.record l ++ recordOf l (hearing s.hub y) := by
  unfold record recordOf
  rw [heard_step, List.filterMap_append]

theorem recordOf_eq_nil {l : Nat} {heard : List (Nat × Node)} (h : ∀ e ∈ heard, e.1 ≠ l) :
    recordOf l heard = [] := by
  refine List.filterMap_eq_nil_iff.2 fun e he => ?_
  rw [if_neg (h e he)]

/-- **Whoever hears once** has one tree more on record. -/
theorem recordOf_map {ls : List Nat} (hls : ls.Nodup) (l : Nat) (t : Node) :
    recordOf l (ls.map (·, t)) = if l ∈ ls then [t] else [] := by
  induction ls with
  | nil => rfl
  | cons k ls ih =>
    obtain ⟨hk, hls⟩ := List.nodup_cons.1 hls
    have hrest := ih hls
    unfold recordOf at hrest ⊢
    rw [List.map_cons, List.filterMap_cons, hrest]
    by_cases hkl : k = l
    · rw [if_pos hkl, if_neg (hkl ▸ hk), if_pos (hkl ▸ List.mem_cons_self)]
    · have hmem : l ∈ k :: ls ↔ l ∈ ls := by
        rw [List.mem_cons, or_iff_right (Ne.symm hkl)]
      rw [if_neg hkl]
      simp only [hmem]

/-! ## Subscriptions that live -/

/-- The steps that end a subscription: it is given up, or its peer closes. -/
def Step.ends (x : Subscription) : Step → Bool
  | .unsubscribe y => y == x
  | .close p => p == x.peer
  | _ => false

/-- **The tree with which a step reaches a peer's subscriptions**: one that another open peer sends, or
one that is handed to the peer itself, each as it reads. -/
def reaching? (peer : Nat) : Hub × Step → Option Node
  | (h, .broadcast p n) => if p ≠ peer ∧ h.isOpen p = true then Message.carried? n else none
  | (_, .deliver p raw) => if p = peer then Message.decode? raw else none
  | _ => none

/-- **Live**: the listener stands at its peer. -/
def Stands (h : Hub) (x : Subscription) : Prop := x.listener ∈ h.listeners x.peer

/-- A step that does not end a subscription leaves it where it is. -/
theorem stands_step (hs : s.Sound) (hx : Stands s.hub x) (hy : y.ends x = false) :
    Stands (s.step y).1.hub x := by
  unfold Stands at hx ⊢
  cases y with
  | connect =>
    show x.listener ∈ s.hub.connect.1.listeners x.peer
    rw [hs.hub.listeners_connect]
    exact hx
  | subscribe p =>
    rw [step]
    split
    · next g l hsub =>
      obtain ⟨-, -, -, hlisteners⟩ := Hub.subscribe_spec hsub
      show x.listener ∈ g.listeners x.peer
      rw [hlisteners]
      split
      · exact List.mem_append_left _ hx
      · exact hx
    · exact hx
  | unsubscribe z =>
    have hne : z ≠ x := beq_eq_false_iff_ne.1 hy
    show x.listener ∈ (s.hub.unsubscribe z.peer z.listener).listeners x.peer
    rw [Hub.listeners_unsubscribe]
    split
    · next hpeer =>
      -- another listener of the same peer was given up
      refine (List.mem_erase_of_ne fun hl => hne ?_).2 hx
      cases z
      cases x
      exact congrArg₂ Subscription.mk hpeer.symm hl.symm
    · exact hx
  | close p =>
    have hne : p ≠ x.peer := beq_eq_false_iff_ne.1 hy
    show x.listener ∈ (s.hub.close p).listeners x.peer
    rw [hs.hub.listeners_close, if_neg (Ne.symm hne)]
    exact hx
  | broadcast p n =>
    rw [hub_step_broadcast]
    exact hx
  | deliver p raw =>
    rw [hub_step_deliver]
    exact hx

/-- **What reaches a live subscription** goes on its record, once. -/
theorem recordOf_hearing (hs : s.Sound) (hx : Stands s.hub x) (y : Step) :
    recordOf x.listener (hearing s.hub y) = (reaching? x.peer (s.hub, y)).toList := by
  cases y with
  | connect | subscribe | unsubscribe | close => rfl
  | broadcast p n =>
    rw [hearing, reaching?]
    rcases s.hub.broadcast_cases p n with ⟨hopen, hb⟩ | ⟨-, hothers, hb⟩ | ⟨hopen, t, ht, hb⟩ |
      ⟨-, ht, hb⟩
    · rw [hb, if_neg (by rw [hopen]; exact fun hp => Bool.false_ne_true hp.2)]
      rfl
    · -- there is no other peer, so the subscription is at this one
      have hself : ¬ (p ≠ x.peer ∧ s.hub.isOpen p = true) := by
        rintro ⟨hne, -⟩
        have hmem : x.peer ∈ s.hub.others p :=
          Hub.mem_others.2 ⟨Hub.isOpen_of_mem_listeners hx, Ne.symm hne⟩
        rw [hothers] at hmem
        cases hmem
      rw [hb, if_neg hself]
      rfl
    · rw [hb, ht]
      show recordOf x.listener ((s.hub.heard ⟨s.hub.others p, some t⟩).map (·, t)) = _
      rw [recordOf_map (Hub.nodup_heard hs.distinct hs.hub p (some t))]
      simp only [hs.hub.mem_heard_iff hx, hopen, and_true, ne_comm (a := p)]
      split <;> rfl
    · rw [hb, ht, ite_self]
      rfl
  | deliver p raw =>
    rw [reaching?]
    by_cases hp : p = x.peer
    · rw [if_pos hp, hp, hearing]
      unfold Hub.deliver
      rw [Hub.isOpen_of_mem_listeners hx]
      cases hd : Message.decode? raw with
      | none => rfl
      | some t =>
        have hmem : x.listener ∈ s.hub.listeners x.peer := hx
        show recordOf x.listener ((s.hub.listeners x.peer).map (·, t)) = [t]
        rw [recordOf_map (hs.distinct x.peer), if_pos hmem]
    · rw [if_neg hp]
      refine recordOf_eq_nil fun e he hl => hp ?_
      have hlistens := mem_listeners_of_deliver he
      rw [hl] at hlistens
      exact hs.hub.once hlistens hx

/-! ## Subscriptions that ended -/

/-- **Gone for good**: the number was issued, and nobody of that number listens. -/
structure Gone (h : Hub) (l : Nat) : Prop where
  issued : l ≤ h.issued
  nowhere : ∀ p, l ∉ h.listeners p

/-- The end of a subscription. -/
theorem gone_of_ends (hs : s.Sound) (hx : Stands s.hub x) (hy : y.ends x = true) :
    Gone (s.step y).1.hub x.listener := by
  cases y with
  | connect | subscribe | broadcast | deliver => cases hy
  | unsubscribe z =>
    obtain rfl : z = x := beq_iff_eq.1 hy
    refine ⟨hs.hub.listeners hx, fun p hp => ?_⟩
    replace hp : z.listener ∈ (s.hub.unsubscribe z.peer z.listener).listeners p := hp
    rw [Hub.listeners_unsubscribe] at hp
    -- a listener listens at one peer only, so it is gone with that one
    split at hp
    · next hpeer =>
      rw [hpeer] at hp
      exact (hs.distinct z.peer).not_mem_erase hp
    · next hpeer => exact hpeer (hs.hub.once hp hx)
  | close p =>
    obtain rfl : p = x.peer := beq_iff_eq.1 hy
    refine ⟨hs.hub.listeners hx, fun p hp => ?_⟩
    replace hp : x.listener ∈ (s.hub.close x.peer).listeners p := hp
    rw [hs.hub.listeners_close] at hp
    split at hp
    · cases hp
    · next hpeer => exact hpeer (hs.hub.once hp hx)

/-- What is gone hears nothing. -/
theorem ne_of_hearing {l : Nat} (hl : Gone s.hub l) {e : Nat × Node}
    (he : e ∈ hearing s.hub y) : e.1 ≠ l := by
  rintro rfl
  obtain ⟨p, hp⟩ := exists_mem_listeners he
  exact hl.nowhere p hp

/-- Whoever listens after a step listened before it, or was made a listener by it. -/
theorem mem_listeners_step (hs : s.Sound) {p l : Nat} (h : l ∈ (s.step y).1.hub.listeners p) :
    l ∈ s.hub.listeners p ∨ (y = .subscribe p ∧ (s.step y).2 = .ok (.subscribed ⟨p, l⟩)) := by
  cases y with
  | connect =>
    replace h : l ∈ s.hub.connect.1.listeners p := h
    rw [hs.hub.listeners_connect] at h
    exact Or.inl h
  | subscribe q =>
    rw [step] at h ⊢
    -- a new listener, or one that was there
    split at h
    · next g k hsub =>
      obtain ⟨-, -, -, hlisteners⟩ := Hub.subscribe_spec hsub
      replace h : l ∈ g.listeners p := h
      rw [hlisteners] at h
      split at h
      · next hpeer =>
        rcases List.mem_append.1 h with h | h
        · exact Or.inl h
        · obtain rfl : p = q := hpeer
          obtain rfl : l = k := List.mem_singleton.1 h
          exact Or.inr ⟨rfl, rfl⟩
      · exact Or.inl h
    · exact Or.inl h
  | unsubscribe z =>
    replace h : l ∈ (s.hub.unsubscribe z.peer z.listener).listeners p := h
    rw [Hub.listeners_unsubscribe] at h
    split at h
    · exact Or.inl (List.mem_of_mem_erase h)
    · exact Or.inl h
  | close q =>
    replace h : l ∈ (s.hub.close q).listeners p := h
    rw [hs.hub.listeners_close] at h
    split at h
    · cases h
    · exact Or.inl h
  | broadcast q n =>
    rw [hub_step_broadcast] at h
    exact Or.inl h
  | deliver q raw =>
    rw [hub_step_deliver] at h
    exact Or.inl h

/-- What is gone stays gone. -/
theorem gone_step {l : Nat} (hs : s.Sound) (hl : Gone s.hub l) (y : Step) :
    Gone (s.step y).1.hub l := by
  refine ⟨Nat.le_trans hl.issued (issued_le_step s y), fun p hp => ?_⟩
  rcases mem_listeners_step hs hp with hp | ⟨rfl, hnew⟩
  · exact hl.nowhere p hp
  · -- a new number is above all that were issued
    obtain ⟨-, g, hsub, -⟩ := subscribed_spec hnew
    obtain ⟨hl', -, -, -⟩ := Hub.subscribe_spec hsub
    have hle := hl.issued
    dsimp only at hl'
    omega

/-- A record ends when its listener is gone. -/
theorem record_run_of_gone {l : Nat} (hs : s.Sound) (hl : Gone s.hub l) (steps : List Step) :
    (s.run steps).record l = s.record l := by
  induction steps generalizing s with
  | nil => rfl
  | cons y steps ih =>
    have hstep : (s.step y).1.record l = s.record l := by
      rw [record_step, recordOf_eq_nil fun e he => ne_of_hearing hl he, List.append_nil]
    exact (ih (sound_step hs y) (gone_step hs hl y)).trans hstep

/-! ## Runs -/

/-- Steps, each with the hub on which it is taken. -/
def trace (s : Recording) : List Step → List (Hub × Step)
  | [] => []
  | y :: steps => (s.hub, y) :: (s.step y).1.trace steps

/-- **What reaches a subscription** along a trace, up to its end. -/
def arrivals (x : Subscription) (events : List (Hub × Step)) : List Node :=
  (events.takeWhile fun e => !e.2.ends x).filterMap (reaching? x.peer)

/-- **The record of a live subscription** grows by what reaches it up to its end. -/
theorem record_run (hs : s.Sound) (hx : Stands s.hub x) (steps : List Step) :
    (s.run steps).record x.listener
      = s.record x.listener ++ arrivals x (s.trace steps) := by
  induction steps generalizing s with
  | nil => exact (List.append_nil _).symm
  | cons y steps ih =>
    have hrecord : (s.step y).1.record x.listener
        = s.record x.listener ++ (reaching? x.peer (s.hub, y)).toList := by
      rw [record_step, recordOf_hearing hs hx]
    show ((s.step y).1.run steps).record x.listener = _
    unfold arrivals
    rw [trace]
    -- the step that ends the subscription reaches it no more, and nothing after it does
    cases hy : y.ends x with
    | true =>
      have hgone := gone_of_ends hs hx hy
      have hsilent : reaching? x.peer (s.hub, y) = none := by
        cases y with
        | broadcast | deliver => cases hy
        | _ => rfl
      rw [record_run_of_gone (sound_step hs y) hgone, hrecord, hsilent,
        List.takeWhile_cons_of_neg (by simp [hy])]
      rfl
    | false =>
      rw [ih (sound_step hs y) (stands_step hs hx hy), hrecord,
        List.takeWhile_cons_of_pos (by simp [hy]), List.append_assoc]
      unfold arrivals
      rw [List.filterMap_cons]
      cases reaching? x.peer (s.hub, y) <;> rfl

theorem run_append (s : Recording) (before after : List Step) :
    s.run (before ++ after) = (s.run before).run after := List.foldl_append

/-- **A subscription that lives** after some steps: one of them made it, and none of those that came
later ended it. -/
def Live (steps : List Step) (x : Subscription) : Prop :=
  ∃ before after, steps = before ++ .subscribe x.peer :: after ∧
    ((empty.run before).step (.subscribe x.peer)).2 = .ok (.subscribed x) ∧
    ∀ y ∈ after, y.ends x = false

/-- A new subscription stands, and has nothing on record. -/
theorem stands_of_subscribed (hs : s.Sound)
    (h : (s.step (.subscribe x.peer)).2 = .ok (.subscribed x)) :
    Stands (s.step (.subscribe x.peer)).1.hub x ∧
      (s.step (.subscribe x.peer)).1.record x.listener = [] := by
  obtain ⟨-, g, hsub, hstep⟩ := subscribed_spec h
  obtain ⟨hl, -, -, hlisteners⟩ := Hub.subscribe_spec hsub
  rw [hstep]
  constructor
  · show x.listener ∈ g.listeners x.peer
    rw [hlisteners, if_pos rfl]
    exact List.mem_append_right _ (List.mem_singleton_self _)
  · refine recordOf_eq_nil fun e he hne => ?_
    have hle := hs.issued e he
    omega

/-- A subscription stands while no step ends it. -/
theorem stands_run (hs : s.Sound) (hx : Stands s.hub x) {steps : List Step}
    (hsteps : ∀ y ∈ steps, y.ends x = false) : Stands (s.run steps).hub x := by
  induction steps generalizing s with
  | nil => exact hx
  | cons y steps ih =>
    obtain ⟨hy, hsteps⟩ := List.forall_mem_cons.1 hsteps
    exact ih (sound_step hs y) (stands_step hs hx hy) hsteps

/-- **Who listens after a run**: the subscriptions that live. -/
theorem stands_run_iff (steps : List Step) (x : Subscription) :
    Stands (empty.run steps).hub x ↔ Live steps x := by
  constructor
  · intro h
    -- the induction takes the last step off, since only it can have made what its own steps ended
    induction steps using List.reverseRecOn with
    | nil => cases h
    | append_singleton steps y ih =>
      have hs : (empty.run steps).Sound := sound_run sound_empty steps
      rw [run_append] at h
      replace h : Stands ((empty.run steps).step y).1.hub x := h
      rcases mem_listeners_step hs h with hx | ⟨rfl, hreply⟩
      · cases hy : y.ends x with
        | true => exact absurd h ((gone_of_ends hs hx hy).nowhere x.peer)
        | false =>
          obtain ⟨before, after, rfl, hmade, hafter⟩ := ih hx
          refine ⟨before, after ++ [y], by simp, hmade, fun z hz => ?_⟩
          rcases List.mem_append.1 hz with hz | hz
          · exact hafter z hz
          · rw [List.mem_singleton.1 hz]
            exact hy
      · refine ⟨steps, [], rfl, hreply, fun z hz => ?_⟩
        cases hz
  · rintro ⟨before, after, rfl, hmade, hafter⟩
    have hs : (empty.run before).Sound := sound_run sound_empty before
    rw [run_append]
    exact stands_run (sound_step hs _) (stands_of_subscribed hs hmade).1 hafter

/-! ## Delivery -/

/-- **What is sent through an open peer** reaches every other open peer, or it does not arrive at all. -/
theorem broadcast_of_open (hs : s.Sound) {p : Nat} (hp : s.hub.isOpen p = true) (n : Node) :
    (s.step (.broadcast p n)).2 = .ok (.reached (s.hub.count - 1)) ∨
    Message.carried? n = none ∧ ∃ e, (s.step (.broadcast p n)).2 = .error e := by
  rw [step, ← Hub.length_others hs.hub hp]
  rcases s.hub.broadcast_cases p n with ⟨hclosed, -⟩ | ⟨-, hothers, hb⟩ | ⟨-, t, -, hb⟩ |
    ⟨-, hnone, hb⟩
  · rw [hp] at hclosed
    cases hclosed
  · rw [hb, hothers]
    exact Or.inl rfl
  · rw [hb]
    exact Or.inl rfl
  · rw [hb]
    exact Or.inr ⟨hnone, _, rfl⟩

/-- **Delivery**, after any run.

A subscription that is made now has on record, after any further run, what reached it before its end,
in order: the trees that other open peers sent, as they arrive, and those that were handed to its own
peer.  A step that fails changes nothing; on a closed peer nothing can be sent, handed over or
listened to, and a text that is no message cannot be handed over.  A tree whose message nests no
deeper than the reader allows, and whose numbers are numbers that there are, can be sent through an
open peer and arrives, and whatever is sent reaches every other open peer.  A message that is handed to
an open peer reaches its live subscriptions, each once. -/
theorem delivery_of_run (steps : List Step) :
    let s := empty.run steps
    (∀ x, (s.step (.subscribe x.peer)).2 = .ok (.subscribed x) → ∀ after,
      (s.run (.subscribe x.peer :: after)).record x.listener
        = arrivals x ((s.step (.subscribe x.peer)).1.trace after)) ∧
    (∀ y e, (s.step y).2 = .error e → (s.step y).1 = s) ∧
    (∀ p, s.hub.isOpen p = false →
      (s.step (.subscribe p)).2 = .error .closed ∧
      (∀ n, (s.step (.broadcast p n)).2 = .error .closed) ∧
      ∀ raw, (s.step (.deliver p raw)).2 = .error .closed) ∧
    (∀ p, s.hub.isOpen p = true →
      (∀ raw, Message.decode? raw = none → (s.step (.deliver p raw)).2 = .error .malformed) ∧
      (∀ n, n.toJson.Representable → (Message.toJson n).depth ≤ Json.maxDepth →
        (s.step (.broadcast p n)).2 = .ok (.reached (s.hub.count - 1)) ∧
        ∃ t, Message.carried? n = some t) ∧
      (∀ n k, (s.step (.broadcast p n)).2 = .ok (.reached k) → k = s.hub.count - 1) ∧
      ∀ raw t, Message.decode? raw = some t → ∃ ls : List Nat, ls.Nodup ∧
        (∀ l, l ∈ ls ↔ Live steps ⟨p, l⟩) ∧
        (s.step (.deliver p raw)).2 = .ok (.reached ls.length)) := by
  have hs : (empty.run steps).Sound := sound_run sound_empty steps
  -- what a subscription hears, what a failure changes, and what a closed and an open peer do
  refine ⟨fun x hmade after => ?_, fun y e => step_eq_self_of_error, fun p hp => ?_, fun p hp => ?_⟩
  · obtain ⟨hstands, hblank⟩ := stands_of_subscribed hs hmade
    have hrecord := record_run (sound_step hs _) hstands after
    rw [hblank, List.nil_append] at hrecord
    exact hrecord
  · refine ⟨?_, fun n => ?_, fun raw => ?_⟩
    · rw [step, Hub.subscribe, hp]
      rfl
    · rw [step, Hub.broadcast, hp]
      rfl
    · rw [step, Hub.deliver, hp]
      rfl
  · refine ⟨fun raw hraw => ?_, fun n hn hdepth => ?_, fun n k hk => ?_, fun raw t ht => ?_⟩
    · rw [step, Hub.deliver, hp, hraw]
      rfl
    · obtain ⟨t, ht⟩ := Message.exists_carried? hn hdepth
      rcases broadcast_of_open hs hp n with hreached | ⟨hnone, -⟩
      · exact ⟨hreached, t, ht⟩
      · rw [ht] at hnone
        cases hnone
    · rcases broadcast_of_open hs hp n with hreached | ⟨-, e, hfailed⟩
      · exact Reply.reached.inj (Except.ok.inj (hk.symm.trans hreached))
      · rw [hfailed] at hk
        cases hk
    · refine ⟨(empty.run steps).hub.listeners p, hs.distinct p,
        fun l => stands_run_iff steps ⟨p, l⟩, ?_⟩
      rw [step, Hub.deliver, hp, ht]
      rfl

/-- A page with nothing on it. -/
def leaf : Node := .make "leaf" (.blank (some .container))

theorem carried?_leaf : Message.carried? leaf = some leaf := by
  refine Message.carried?_eq_self ⟨by decide, ?_⟩ (by decide) (by decide)
  intro n hn
  cases hn

/-- Of two trees that one peer sends, a subscription of the other has the one that was sent before
it was given up. -/
theorem delivery_of_run_twoPeers :
    (empty.run [.connect, .connect, .subscribe 2, .broadcast 1 leaf, .unsubscribe ⟨2, 3⟩,
      .broadcast 1 leaf]).record 3 = [leaf] := by
  obtain ⟨hrecord, -⟩ := delivery_of_run [.connect, .connect]
  have hmade := hrecord ⟨2, 3⟩ (by decide)
    [.broadcast 1 leaf, .unsubscribe ⟨2, 3⟩, .broadcast 1 leaf]
  refine hmade.trans ?_
  show (Message.carried? leaf).toList = [leaf]
  rw [carried?_leaf]
  rfl

end Recording
end PageBuilder
