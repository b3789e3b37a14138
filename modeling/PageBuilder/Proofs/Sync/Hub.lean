/-
  The hub: who hears what is sent.

  Programs:       `Sound` — peers and listeners have numbers of their own, all of them issued.
  Specification:  `mem_heard_others` — what is sent through a peer is heard by the listeners of the
                  other peers, and by no listener of its own.
  Crux:           the numbers that are issued never come again, so a listener has one peer.
-/
import Mathlib.Data.List.Nodup
import PageBuilder.Sync.Hub

namespace PageBuilder.Hub

variable {h : Hub} {peer : Nat}

/-! ## Peers that are open -/

theorem isOpen_iff : h.isOpen peer = true ↔ peer ∈ Entries.keys h.peers := by
  unfold isOpen Entries.contains
  rw [Option.isSome_iff_ne_none, ne_eq, Entries.get?_eq_none_iff, not_not]

/-- Only an open peer has listeners. -/
theorem isOpen_of_mem_listeners {l : Nat} (hl : l ∈ h.listeners peer) : h.isOpen peer = true := by
  unfold listeners at hl
  unfold isOpen Entries.contains
  cases hp : Entries.get? h.peers peer with
  | none =>
    rw [hp] at hl
    nomatch hl
  | some ls => rfl

theorem mem_others {p : Nat} : p ∈ h.others peer ↔ h.isOpen p = true ∧ p ≠ peer := by
  unfold others
  rw [List.mem_filter, isOpen_iff, bne_iff_ne]

/-! ## Numbers -/

/-- **Numbers of their own**: no peer is there twice, no listener listens at two peers, and every
number that is in use was issued. -/
structure Sound (h : Hub) : Prop where
  keys : (Entries.keys h.peers).Nodup
  peers : ∀ p ∈ Entries.keys h.peers, p ≤ h.issued
  listeners : ∀ {p l}, l ∈ h.listeners p → l ≤ h.issued
  once : ∀ {p q l}, l ∈ h.listeners p → l ∈ h.listeners q → p = q

theorem sound_empty : empty.Sound := by
  refine ⟨List.nodup_nil, nofun, ?_, ?_⟩
  · intro p l hl
    nomatch hl
  · intro p q l hl
    nomatch hl

/-- A hub with fewer listeners and the same or fewer peers. -/
theorem Sound.mono {g : Hub} (hs : h.Sound) (hissued : g.issued = h.issued)
    (hkeys : (Entries.keys g.peers).Sublist (Entries.keys h.peers))
    (hlisteners : ∀ {p l}, l ∈ g.listeners p → l ∈ h.listeners p) : g.Sound := by
  refine ⟨hs.keys.sublist hkeys, ?_, ?_, ?_⟩
  · intro p hp
    rw [hissued]
    exact hs.peers p (hkeys.subset hp)
  · intro p l hl
    rw [hissued]
    exact hs.listeners (hlisteners hl)
  · intro p q l hl hl'
    exact hs.once (hlisteners hl) (hlisteners hl')

/-! ## Joining and leaving -/

/-- A number that was not issued yet is no peer's. -/
theorem Sound.get?_next (hs : h.Sound) : Entries.get? h.peers (h.issued + 1) = none := by
  rw [Entries.get?_eq_none_iff]
  intro hmem
  have hle := hs.peers _ hmem
  omega

/-- A peer that connects leaves the listeners of the others. -/
theorem Sound.listeners_connect (hs : h.Sound) (p : Nat) :
    h.connect.1.listeners p = h.listeners p := by
  show (Entries.get? (Entries.put h.peers (h.issued + 1) []) p).getD [] = _
  rw [Entries.get?_put]
  split
  · next hp =>
    unfold Hub.listeners
    rw [← hp, hs.get?_next]
    rfl
  · rfl

theorem Sound.connect (hs : h.Sound) : h.connect.1.Sound := by
  -- no number beyond the issued ones is in use
  have hnew : h.issued + 1 ∉ Entries.keys h.peers := Entries.get?_eq_none_iff.1 hs.get?_next
  have hkeys : Entries.keys h.connect.1.peers = Entries.keys h.peers ++ [h.issued + 1] := by
    show Entries.keys (Entries.put h.peers (h.issued + 1) []) = _
    rw [Entries.keys_put, if_neg hnew]
  refine ⟨?_, ?_, ?_, ?_⟩
  · rw [hkeys]
    exact hs.keys.append (List.nodup_singleton _) (List.disjoint_singleton.2 hnew)
  · intro p hp
    rw [hkeys, List.mem_append, List.mem_singleton] at hp
    show p ≤ h.issued + 1
    rcases hp with hp | rfl
    · exact Nat.le_succ_of_le (hs.peers p hp)
    · exact Nat.le_refl _
  · intro p l hl
    rw [hs.listeners_connect] at hl
    exact Nat.le_succ_of_le (hs.listeners hl)
  · intro p q l hl hl'
    rw [hs.listeners_connect] at hl hl'
    exact hs.once hl hl'

/-- A peer that closes has no listeners left. -/
theorem Sound.listeners_close (hs : h.Sound) (p : Nat) :
    (h.close peer).listeners p = if p = peer then [] else h.listeners p := by
  show (Entries.get? (Entries.erase h.peers peer) p).getD [] = _
  split
  · next hp => rw [hp, Entries.get?_erase_self hs.keys, Option.getD_none]
  · next hp => rw [Entries.get?_erase_ne h.peers (Ne.symm hp), Hub.listeners]

/-- Closing keeps the numbers. -/
theorem Sound.close (hs : h.Sound) (peer : Nat) : (h.close peer).Sound := by
  refine hs.mono rfl ?_ ?_
  · show (Entries.keys (Entries.erase h.peers peer)).Sublist _
    rw [Entries.keys_erase]
    exact List.erase_sublist
  · intro p l hl
    rw [hs.listeners_close] at hl
    split at hl
    · nomatch hl
    · exact hl

/-! ## Listening -/

/-- One listener goes from one peer. -/
theorem listeners_unsubscribe (p l : Nat) : (h.unsubscribe peer l).listeners p
    = if p = peer then (h.listeners p).erase l else h.listeners p := by
  show (Entries.get? (Entries.modify h.peers peer (·.erase l)) p).getD [] = _
  rw [Entries.get?_modify]
  unfold listeners
  by_cases hp : p = peer
  · rw [if_pos hp, if_pos hp.symm]
    cases Entries.get? h.peers p <;> rfl
  · rw [if_neg hp, if_neg (Ne.symm hp)]

/-- Giving up keeps the numbers. -/
theorem Sound.unsubscribe (hs : h.Sound) (peer l : Nat) : (h.unsubscribe peer l).Sound := by
  refine hs.mono rfl ?_ ?_
  · show (Entries.keys (Entries.modify h.peers peer _)).Sublist _
    rw [Entries.keys_modify]
  · intro p k hk
    rw [listeners_unsubscribe] at hk
    split at hk
    · exact List.mem_of_mem_erase hk
    · exact hk

/-- **A new listener** has a number of its own. -/
theorem subscribe_spec {g : Hub} {l : Nat} (hsub : h.subscribe peer = .ok (g, l)) :
    l = h.issued + 1 ∧ g.issued = l ∧ Entries.keys g.peers = Entries.keys h.peers ∧
      ∀ p, g.listeners p = if p = peer then h.listeners p ++ [l] else h.listeners p := by
  unfold subscribe at hsub
  split at hsub
  · next hopen =>
    obtain ⟨rfl, rfl⟩ := Prod.mk.inj (Except.ok.inj hsub)
    refine ⟨rfl, rfl, Entries.keys_modify .., fun p => ?_⟩
    show (Entries.get? (Entries.modify h.peers peer (· ++ [h.issued + 1])) p).getD [] = _
    rw [Entries.get?_modify]
    unfold listeners
    -- the listener is put at the end of those of its peer
    by_cases hp : p = peer
    · rw [if_pos hp, if_pos hp.symm]
      obtain ⟨ls, hls⟩ := Option.isSome_iff_exists.1 hopen
      rw [hp, hls]
      rfl
    · rw [if_neg hp, if_neg (Ne.symm hp)]
  · nomatch hsub

/-- A listener that is added gets a number of its own. -/
theorem Sound.subscribe {g : Hub} {l : Nat} (hs : h.Sound)
    (hsub : h.subscribe peer = .ok (g, l)) : g.Sound := by
  obtain ⟨hl, hissued, hkeys, hlisteners⟩ := subscribe_spec hsub
  -- who listens in the new hub did before, or is the new listener at its peer
  have hmem : ∀ {p k}, k ∈ g.listeners p → k ∈ h.listeners p ∨ (k = l ∧ p = peer) := by
    intro p k hk
    rw [hlisteners] at hk
    split at hk
    · next hp =>
      rcases List.mem_append.1 hk with hk | hk
      · exact Or.inl hk
      · exact Or.inr ⟨List.mem_singleton.1 hk, hp⟩
    · exact Or.inl hk
  refine ⟨hkeys ▸ hs.keys, ?_, ?_, ?_⟩
  · intro p hp
    rw [hkeys] at hp
    have hle := hs.peers p hp
    omega
  · intro p k hk
    rcases hmem hk with hk | ⟨rfl, -⟩
    · have hle := hs.listeners hk
      omega
    · omega
  · intro p q k hp hq
    rcases hmem hp with hp | ⟨rfl, rfl⟩
    · rcases hmem hq with hq | ⟨rfl, -⟩
      · exact hs.once hp hq
      · have hle := hs.listeners hp
        omega
    · rcases hmem hq with hq | ⟨-, rfl⟩
      · have hle := hs.listeners hq
        omega
      · rfl

/-! ## Sending -/

/-- **Who hears** what is sent through a peer: the listeners of the others. -/
theorem mem_heard_others {l : Nat} {t : Option Node} :
    l ∈ h.heard ⟨h.others peer, t⟩ ↔ ∃ p, p ≠ peer ∧ l ∈ h.listeners p := by
  unfold heard
  rw [List.mem_flatMap]
  constructor
  · rintro ⟨p, hp, hl⟩
    exact ⟨p, (mem_others.1 hp).2, hl⟩
  · rintro ⟨p, hp, hl⟩
    exact ⟨p, mem_others.2 ⟨isOpen_of_mem_listeners hl, hp⟩, hl⟩

/-- A listener hears what is sent unless it is sent through its own peer. -/
theorem Sound.mem_heard_iff {p l : Nat} {t : Option Node} (hs : h.Sound)
    (hl : l ∈ h.listeners p) : l ∈ h.heard ⟨h.others peer, t⟩ ↔ p ≠ peer := by
  rw [mem_heard_others]
  constructor
  · rintro ⟨q, hq, hlq⟩
    rw [hs.once hl hlq]
    exact hq
  · intro hp
    exact ⟨p, hp, hl⟩

end PageBuilder.Hub
