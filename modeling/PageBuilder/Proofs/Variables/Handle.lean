/-
  What a handle to variables shows.

  The steps of a run are told here with the latest one first, so that what a step meets is what stands
  behind it.

  Programs:       `Stores.run`; `root` — the handle that a handle was cloned from, directly or not, and
                  that came with its store; `log` — the writes through the clones of a handle.
  Specification:  `shows_of_run` — a read through a handle depends on its log and on nothing else, a
                  write shows through exactly the handles of one root, and a store made of a snapshot
                  never comes to share anything with the one that was there.
  Crux:           `Tracked` — two handles see one store just if they have one root; every step keeps
                  that, since a new store stands behind all stores and its handle behind all handles.
-/
import Mathlib.Data.List.Induction
import PageBuilder.Proofs.Variables.History
import PageBuilder.Variables.Handle

namespace PageBuilder.Stores

open Variables (Log Write replay)

/-! ## Runs -/

/-- For every handle that some steps gave out, the handle that came with its store. -/
def roots : List Step → List Nat
  | [] => []
  | .write _ _ :: past => roots past
  | .make _ :: past | .fork _ :: past => roots past ++ [(roots past).length]
  | .share h :: past => roots past ++ [(roots past)[h]?.getD h]

/-- **The root of a handle**: the handle that it was cloned from, directly or not, and that came with
the store. -/
def root (past : List Step) (h : Nat) : Nat := (roots past)[h]?.getD h

/-- A step that asks for no handle but the `n` that there are, and whose snapshot, if it has one, has no
name twice. -/
def Step.Legal (n : Nat) : Step → Prop
  | .write h w => h < n ∧ w.Proper
  | .make snapshot => (Entries.keys snapshot).Nodup
  | .share h => h < n
  | .fork h => h < n

instance (n : Nat) (x : Step) : Decidable (x.Legal n) := by
  cases x <;> unfold Step.Legal <;> infer_instance

/-- **A run as there can be**: every step asks for handles that were given out before it. -/
def Legal : List Step → Prop
  | [] => True
  | x :: past => x.Legal (roots past).length ∧ Legal past

def decLegal : (past : List Step) → Decidable (Legal past)
  | [] => .isTrue trivial
  | x :: past =>
    have := decLegal past
    inferInstanceAs (Decidable (x.Legal (roots past).length ∧ Legal past))

instance (past : List Step) : Decidable (Legal past) := decLegal past

/-- **The writes through a handle and its clones**, since the store was made. -/
def log : List Step → Nat → Log
  | [], _ => []
  | .write g w :: past, h => if root past g = root past h then w :: log past h else log past h
  | .make snapshot :: past, h =>
    if h = (roots past).length then [.restore snapshot] else log past h
  | .fork g :: past, h =>
    if h = (roots past).length then [.restore (replay (log past g))] else log past h
  | .share g :: past, h => if h = (roots past).length then log past g else log past h

variable {past : List Step} {s : Stores} {g h n : Nat} {x : Step} {w : Write}

/-! ## Roots -/

/-- A handle that is there keeps its root, whatever is done. -/
theorem root_append (later : List Step) (hh : h < (roots past).length) :
    root (later ++ past) h = root past h ∧ h < (roots (later ++ past)).length := by
  induction later with
  | nil => exact ⟨rfl, hh⟩
  | cons x later ih =>
    obtain ⟨hroot, hlt⟩ := ih
    have hgrown : ∀ r, (roots (later ++ past) ++ [r])[h]?.getD h = root past h := by
      intro r
      rw [List.getElem?_append_left hlt]
      exact hroot
    cases x with
    | write => exact ⟨hroot, hlt⟩
    | make | share | fork =>
      refine ⟨hgrown _, ?_⟩
      rw [List.cons_append, roots, List.length_append]
      exact Nat.lt_add_right 1 hlt

/-- A root stands no later than its handle. -/
theorem root_le (hlegal : Legal past) : root past h ≤ h := by
  induction past generalizing h with
  | nil => exact Nat.le_refl h
  | cons x past ih =>
    obtain ⟨hx, hpast⟩ := hlegal
    -- a new handle is its own root, or has that of an earlier one
    have hgrown : ∀ r ≤ (roots past).length, (roots past ++ [r])[h]?.getD h ≤ h := by
      intro r hr
      rcases Nat.lt_trichotomy h (roots past).length with hlt | heq | hgt
      · rw [List.getElem?_append_left hlt]
        exact ih hpast
      · rw [heq, List.getElem?_concat_length]
        exact hr
      · rw [List.getElem?_eq_none (by rw [List.length_append]; exact hgt)]
        exact Nat.le_refl h
    cases x with
    | write => exact ih hpast
    | make | fork => exact hgrown _ (Nat.le_refl _)
    | share g => exact hgrown _ (Nat.le_trans (ih hpast) (Nat.le_of_lt hx))

theorem root_cons (x : Step) (hh : h < (roots past).length) : root (x :: past) h = root past h :=
  (root_append [x] hh).1

theorem root_lt (hlegal : Legal past) (hh : h < n) : root past h < n :=
  Nat.lt_of_le_of_lt (root_le hlegal) hh

/-! ## Steps -/

/-- A new store leaves the handles there are where they were. -/
theorem place_add_of_lt (vs : Variables) (hh : h < s.handles.length) :
    (s.add vs).place h = s.place h := by
  unfold place add
  rw [List.getElem?_append_left hh, List.getElem?_eq_getElem hh]
  rfl

theorem place_add_self (s : Stores) (vs : Variables) :
    (s.add vs).place s.handles.length = s.stores.length := by
  unfold place add
  rw [List.getElem?_concat_length]
  rfl

theorem read_add_of_lt (vs : Variables) (hh : h < s.handles.length)
    (hplace : s.place h < s.stores.length) : (s.add vs).read h = s.read h := by
  unfold read
  rw [place_add_of_lt vs hh]
  unfold store add
  rw [List.getElem?_append_left hplace]

theorem read_add_self (s : Stores) (vs : Variables) : (s.add vs).read s.handles.length = vs := by
  unfold read
  rw [place_add_self]
  unfold store add
  rw [List.getElem?_concat_length]
  rfl

theorem place_share_of_lt (g : Nat) (hh : h < s.handles.length) :
    (s.step (.share g)).place h = s.place h := by
  unfold place step
  rw [List.getElem?_append_left hh, List.getElem?_eq_getElem hh, Option.getD_some]

theorem place_share_self (s : Stores) (g : Nat) :
    (s.step (.share g)).place s.handles.length = s.place g := by
  unfold place step
  rw [List.getElem?_concat_length]
  rfl

/-- **A write** shows through the handles of the same store. -/
theorem read_write (g : Nat) (w : Write) (hplace : s.place h < s.stores.length) :
    (s.step (.write g w)).read h = if s.place g = s.place h then w.apply (s.read h) else s.read h := by
  have hsame : (s.step (.write g w)).place h = s.place h := by
    unfold place step
    rw [List.length_modify]
  unfold read
  rw [hsame]
  unfold store step
  rw [List.getElem?_modify, List.getElem?_eq_getElem hplace]
  split <;> rfl

/-! ## Stores with their history -/

/-- **Stores as some steps left them**: handles see one store just if they have one root, and a handle
sees what its log leaves. -/
structure Tracked (past : List Step) (s : Stores) : Prop where
  counted : s.handles.length = (roots past).length
  placed : ∀ h < s.handles.length, s.place h < s.stores.length
  together : ∀ g < s.handles.length, ∀ h < s.handles.length,
    s.place g = s.place h ↔ root past g = root past h
  shown : ∀ h < s.handles.length, s.read h = replay (log past h)

namespace Tracked

theorem empty : Tracked [] .empty := ⟨rfl, nofun, nofun, nofun⟩

/-- **A write** is seen by the handles with its root, and by no other. -/
theorem write (hs : Tracked past s) (hg : g < s.handles.length) (w : Write) :
    Tracked (.write g w :: past) (s.step (.write g w)) := by
  have hplace : ∀ h, (s.step (.write g w)).place h = s.place h := by
    intro h
    unfold place step
    rw [List.length_modify]
  refine ⟨hs.counted, fun h hh => ?_, fun h hh k hk => ?_, fun h hh => ?_⟩
  · rw [hplace, step, List.length_modify]
    exact hs.placed h hh
  · rw [hplace, hplace]
    exact hs.together h hh k hk
  · rw [read_write g w (hs.placed h hh), log, hs.shown h hh]
    by_cases hroot : root past g = root past h
    · rw [if_pos hroot, if_pos ((hs.together g hg h hh).2 hroot)]
      rfl
    · rw [if_neg hroot, if_neg (mt (hs.together g hg h hh).1 hroot)]

/-- A handle that there is now, or the one that comes. -/
theorem lt_or_eq (hs : Tracked past s) (hh : h < s.handles.length + 1) :
    (h < s.handles.length ∧ h < (roots past).length) ∨ h = s.handles.length := by
  rcases Nat.lt_or_eq_of_le (Nat.lt_succ_iff.1 hh) with hlt | heq
  · exact Or.inl ⟨hlt, hs.counted ▸ hlt⟩
  · exact Or.inr heq

/-- **A new store** has a root of its own. -/
theorem add (hs : Tracked past s) (hlegal : Legal past)
    (hroots : roots (x :: past) = roots past ++ [(roots past).length]) (vs : Variables)
    {made : Log} (hmade : replay made = vs)
    (hlog : ∀ h, log (x :: past) h = if h = (roots past).length then made else log past h) :
    Tracked (x :: past) (s.add vs) := by
  have hlength : (s.add vs).handles.length = s.handles.length + 1 := List.length_append
  have hself : root (x :: past) s.handles.length = s.handles.length := by
    rw [root, hroots, hs.counted, List.getElem?_concat_length]
    rfl
  have hstores : (s.add vs).stores.length = s.stores.length + 1 := List.length_append
  -- no handle that there was sees the new store, and none has the new handle as its root
  have hapart : ∀ h, h < s.handles.length → h < (roots past).length →
      (s.add vs).place h ≠ s.stores.length ∧ root (x :: past) h ≠ s.handles.length := by
    intro h hh hroot
    rw [place_add_of_lt vs hh, root_cons x hroot]
    exact ⟨Nat.ne_of_lt (hs.placed h hh), Nat.ne_of_lt (root_lt hlegal hh)⟩
  refine ⟨?_, fun h hh => ?_, fun g hg h hh => ?_, fun h hh => ?_⟩
  · rw [hlength, hroots, hs.counted, List.length_append, List.length_singleton]
  · rw [hstores]
    rcases hs.lt_or_eq (hlength ▸ hh) with ⟨hlt, -⟩ | rfl
    · rw [place_add_of_lt vs hlt]
      exact Nat.lt_succ_of_lt (hs.placed h hlt)
    · rw [place_add_self]
      exact Nat.lt_succ_self _
  · rcases hs.lt_or_eq (hlength ▸ hg) with ⟨hglt, hgroot⟩ | rfl <;>
      rcases hs.lt_or_eq (hlength ▸ hh) with ⟨hhlt, hhroot⟩ | rfl
    · rw [place_add_of_lt vs hglt, place_add_of_lt vs hhlt, root_cons x hgroot, root_cons x hhroot]
      exact hs.together g hglt h hhlt
    · rw [place_add_self, hself]
      exact iff_of_false (hapart g hglt hgroot).1 (hapart g hglt hgroot).2
    · rw [place_add_self, hself]
      exact iff_of_false (hapart h hhlt hhroot).1.symm (hapart h hhlt hhroot).2.symm
    · exact iff_of_true rfl rfl
  · rw [hlog]
    rcases hs.lt_or_eq (hlength ▸ hh) with ⟨hlt, hroot⟩ | rfl
    · rw [if_neg (Nat.ne_of_lt hroot), read_add_of_lt vs hlt (hs.placed h hlt)]
      exact hs.shown h hlt
    · rw [if_pos hs.counted, read_add_self, hmade]

/-- **A clone** has the root of what it was cloned from. -/
theorem share (hs : Tracked past s) (hg : g < s.handles.length) :
    Tracked (.share g :: past) (s.step (.share g)) := by
  have hlength : (s.step (.share g)).handles.length = s.handles.length + 1 := List.length_append
  have hgroot : g < (roots past).length := hs.counted ▸ hg
  have hself : root (.share g :: past) s.handles.length = root past g := by
    rw [root, roots, hs.counted, List.getElem?_concat_length]
    rfl
  -- whatever handle there is, one that there was stands for it
  have hold : ∀ h < (s.step (.share g)).handles.length, ∃ k < s.handles.length,
      (s.step (.share g)).place h = s.place k ∧ root (.share g :: past) h = root past k ∧
      log (.share g :: past) h = log past k := by
    intro h hh
    rcases hs.lt_or_eq (hlength ▸ hh) with ⟨hlt, hroot⟩ | rfl
    · exact ⟨h, hlt, place_share_of_lt g hlt, root_cons _ hroot, if_neg (Nat.ne_of_lt hroot)⟩
    · exact ⟨g, hg, place_share_self s g, hself, if_pos hs.counted⟩
  refine ⟨?_, fun h hh => ?_, fun h hh k hk => ?_, fun h hh => ?_⟩
  · rw [hlength, roots, hs.counted, List.length_append, List.length_singleton]
  · obtain ⟨k, hk, hplace, -⟩ := hold h hh
    rw [hplace]
    exact hs.placed k hk
  · obtain ⟨h', hh', hplace, hroot, -⟩ := hold h hh
    obtain ⟨k', hk', hplace', hroot', -⟩ := hold k hk
    rw [hplace, hplace', hroot, hroot']
    exact hs.together h' hh' k' hk'
  · obtain ⟨k, hk, hplace, -, hlog⟩ := hold h hh
    rw [read, hplace, hlog]
    exact hs.shown k hk

/-- **One step.** -/
theorem step (hs : Tracked past s) (hlegal : Legal (x :: past)) : Tracked (x :: past) (s.step x) := by
  obtain ⟨hx, hpast⟩ := hlegal
  cases x with
  | write g w => exact hs.write (hs.counted ▸ hx.1) w
  | make snapshot => exact hs.add hpast rfl _ rfl fun h => rfl
  | share g => exact hs.share (hs.counted ▸ hx)
  | fork g =>
    refine hs.add hpast rfl _ ?_ fun h => rfl
    rw [hs.shown g (hs.counted ▸ hx)]
    rfl

end Tracked

/-- **Every run**. -/
theorem tracked_run (steps : List Step) (h : Legal steps.reverse) :
    Tracked steps.reverse (empty.run steps) := by
  induction steps using List.reverseRecOn with
  | nil => exact Tracked.empty
  | append_singleton steps x ih =>
    have hrun : empty.run (steps ++ [x]) = (empty.run steps).step x := List.foldl_append
    rw [List.reverse_append] at h ⊢
    rw [hrun]
    exact (ih h.2).step h

/-- What a run may write may stand in a log. -/
theorem proper_log (hlegal : Legal past) : ∀ w ∈ log past h, w.Proper := by
  induction past generalizing h with
  | nil => exact nofun
  | cons x past ih =>
    obtain ⟨hx, hpast⟩ := hlegal
    -- a store begins with a snapshot; that of a copy has no name twice
    cases x with
    | write g w =>
      rw [log]
      split
      · exact List.forall_mem_cons.2 ⟨hx.2, ih hpast⟩
      · exact ih hpast
    | make snapshot =>
      rw [log]
      split
      · exact List.forall_mem_singleton.2 hx
      · exact ih hpast
    | fork g =>
      rw [log]
      split
      · exact List.forall_mem_singleton.2 (Variables.nodup_replay _)
      · exact ih hpast
    | share g =>
      rw [log]
      split
      · exact ih hpast
      · exact ih hpast

/-- **A store that is made of what a handle sees** shows the same, and has a root that no handle there
was ever has. -/
theorem read_copy (hs : Tracked past s) (hlegal : Legal past) (hh : h < s.handles.length)
    (hx : x ∈ [.fork h, .make (s.read h)]) :
    (s.step x).read s.handles.length = s.read h ∧
    ∀ later, ∀ g < s.handles.length,
      root (later ++ x :: past) g ≠ root (later ++ x :: past) s.handles.length := by
  have hnodup : (Entries.keys (s.read h)).Nodup := by
    rw [hs.shown h hh]
    exact Variables.nodup_replay _
  -- a copy, and a store that is made of a snapshot, come about alike
  have hstep : s.step x = s.add (s.read h) ∧
      roots (x :: past) = roots past ++ [(roots past).length] := by
    rcases List.mem_cons.1 hx with rfl | hx
    · exact ⟨congrArg s.add (Variables.ofSnapshot_eq_self hnodup), rfl⟩
    · obtain rfl := List.mem_singleton.1 hx
      exact ⟨congrArg s.add (Variables.ofSnapshot_eq_self hnodup), rfl⟩
  obtain ⟨hadd, hroots⟩ := hstep
  have hself : root (x :: past) s.handles.length = s.handles.length := by
    rw [root, hroots, hs.counted, List.getElem?_concat_length]
    rfl
  have hlength : (roots (x :: past)).length = s.handles.length + 1 := by
    rw [hroots, List.length_append, hs.counted]
    rfl
  refine ⟨by rw [hadd, read_add_self], fun later g hg => ?_⟩
  have hroot : g < (roots past).length := hs.counted ▸ hg
  rw [(root_append later (hlength ▸ Nat.lt_succ_of_lt hg)).1,
    (root_append later (hlength ▸ Nat.lt_succ_self _)).1, hself, root_cons x hroot]
  exact Nat.ne_of_lt (root_lt hlegal hg)

/-- **What handles show**, after any run.

A read through a handle is what the writes through its clones leave, since the store was made: it
depends on them and on nothing else, each variable holds what the last write of its name left, and every
name that is there is listed once, in the order of the first write since it was last absent or since
all were restored, and then in that of the snapshot.  A write shows through exactly the handles of one
root, and those see one store.  A declaration writes the empty text, and only under a name that is
neither empty nor there.  A store that is made of a snapshot has the same names, in the same order and
with the same values, and never comes to share a root with a handle of another store. -/
theorem shows_of_run (steps : List Step) (hlegal : Legal steps.reverse) :
    let past := steps.reverse
    let s := empty.run steps
    let n := s.handles.length
    (∀ h < n, s.read h = replay (log past h) ∧ Variables.Shows (log past h) (s.read h)) ∧
    (∀ g < n, ∀ h < n, (s.sameStore g h = true ↔ root past g = root past h) ∧
      ∀ w, (s.step (.write g w)).read h
        = if root past g = root past h then w.apply (s.read h) else s.read h) ∧
    (∀ h < n, ∀ name, (s.step (.write h (.declare name))).read h
      = if name ≠ "" ∧ Entries.get? (s.read h) name = none
        then s.read h ++ [(name, .string "")] else s.read h) ∧
    ∀ h < n, ∀ x ∈ [.fork h, .make (s.read h)],
      (s.step x).read n = s.read h ∧
      ∀ later, ∀ g < n, root (later ++ x :: past) g ≠ root (later ++ x :: past) n := by
  intro past s n
  have hs : Tracked past s := tracked_run steps hlegal
  -- a write goes to the handles with the same root
  have hwrite : ∀ g < n, ∀ h < n, ∀ w, (s.step (.write g w)).read h
      = if root past g = root past h then w.apply (s.read h) else s.read h := by
    intro g hg h hh w
    rw [read_write g w (hs.placed h hh)]
    exact if_congr (hs.together g hg h hh) rfl rfl
  refine ⟨fun h hh => ?_, fun g hg h hh => ⟨?_, hwrite g hg h hh⟩, fun h hh name => ?_,
    fun h hh x hx => read_copy hs hlegal hh hx⟩
  · have hread := hs.shown h hh
    exact ⟨hread, hread ▸ Variables.shows_replay (proper_log hlegal)⟩
  · rw [sameStore, beq_iff_eq]
    exact hs.together g hg h hh
  · rw [hwrite h hh h hh, if_pos rfl, Write.apply_declare]

/-- Two handles of one store and a copy of it: a name that was removed comes back behind the other. -/
def sharedRun : List Step :=
  [.make [("a", .null)], .share 0, .write 1 (.set "b" (.bool true)), .fork 1,
    .write 0 (.remove "a"), .write 1 (.declare "a"), .write 2 (.set "a" (.bool false))]

/-- The law on two handles of one store and a copy of it. -/
theorem shows_of_run_sharedRun :
    Legal sharedRun.reverse ∧
    (empty.run sharedRun).read 0 = [("b", .bool true), ("a", .string "")] ∧
    (empty.run sharedRun).read 2 = [("a", .bool false), ("b", .bool true)] ∧
    Variables.Shows (log sharedRun.reverse 0) ((empty.run sharedRun).read 0) ∧
    root sharedRun.reverse 1 = root sharedRun.reverse 0 ∧
    ∀ w, ((empty.run sharedRun).step (.write 2 w)).read 0 = (empty.run sharedRun).read 0 := by
  have hlegal : Legal sharedRun.reverse := by decide
  obtain ⟨hshows, hwrites, -⟩ := shows_of_run sharedRun hlegal
  refine ⟨hlegal, by decide, by decide, (hshows 0 (by decide)).2, by decide, fun w => ?_⟩
  exact (hwrites 2 (by decide) 0 (by decide)).2 w

end PageBuilder.Stores
