/-
  Variables and the writes they come from.

  A log is the writes to one store, the latest one first.

  Programs:       `replay` — the variables that a log leaves; `lastWrite?` — the last write of a name;
                  `since?` — since when a name is there.
  Specification:  `shows_replay` — a variable holds what the last write of its name left, and the names
                  stand in the order in which they came to be there.
  Crux:           a write of one name leaves the moments of all others alone, and a name that is new
                  comes behind them since no moment is later than the log is long; a restoring write
                  starts over, with the order of its snapshot.
-/
import Mathlib.Data.List.Nodup
import PageBuilder.Variables.Basic

namespace PageBuilder.Variables

/-! ## Writes -/

namespace Write

/-- Whether a write writes a name: a declaration does if the name is not there, and whatever restores
the variables writes every name. -/
def touches (vs : Variables) (name : String) : Write → Bool
  | .set y _ => y == name
  | .declare y => y == name && vs.canDeclare y
  | .remove y => y == name
  | .restore _ => true

/-- What a write of a name leaves there. -/
def leaves? (name : String) : Write → Option Json
  | .set _ value => some value
  | .declare _ => some (.string "")
  | .remove _ => none
  | .restore snapshot => Entries.get? snapshot name

/-- A write whose snapshot, if it has one, has no name twice. -/
def Proper : Write → Prop
  | .restore snapshot => (Entries.keys snapshot).Nodup
  | _ => True

instance (w : Write) : Decidable w.Proper := by
  cases w <;> unfold Proper <;> infer_instance

variable {w : Write} {vs : Variables} {name : String}

/-- No name comes twice. -/
theorem nodup_apply (w : Write) (h : (Entries.keys vs).Nodup) : (Entries.keys (w.apply vs)).Nodup := by
  cases w with
  | set y value => exact Entries.nodup_keys_put h y value
  | declare y =>
    rw [apply, Variables.declare]
    split
    · exact Entries.nodup_keys_put h y _
    · exact h
  | remove y =>
    rw [apply, Entries.keys_erase]
    exact h.erase y
  | restore snapshot =>
    have hnone : (Entries.keys ([] : Variables)).Nodup := List.nodup_nil
    exact Entries.nodup_keys_putAll hnone snapshot

/-- **What is read after a write**: what the write left, if it wrote the name. -/
theorem get?_apply (hw : w.Proper) (h : (Entries.keys vs).Nodup) (name : String) :
    Entries.get? (w.apply vs) name
      = if w.touches vs name then w.leaves? name else Entries.get? vs name := by
  cases w with
  | set y value =>
    simp only [apply, touches, leaves?, beq_iff_eq]
    exact Entries.get?_put vs y name value
  | declare y =>
    simp only [apply, Variables.declare, touches, leaves?, Bool.and_eq_true, beq_iff_eq]
    -- a declaration of a name that is there writes nothing
    cases vs.canDeclare y with
    | false => simp
    | true =>
      rw [if_pos rfl, Entries.get?_put]
      simp
  | remove y =>
    simp only [apply, touches, leaves?, beq_iff_eq]
    split
    · next hy => rw [← hy, Entries.get?_erase_self h]
    · next hy => exact Entries.get?_erase_ne vs hy
  | restore snapshot =>
    rw [apply, ofSnapshot_eq_self hw]
    rfl

/-- **A declaration** writes the empty text under a name that is neither empty nor there. -/
theorem apply_declare (vs : Variables) (name : String) :
    (Write.declare name).apply vs =
      if name ≠ "" ∧ Entries.get? vs name = none then vs ++ [(name, .string "")] else vs := by
  have hcan : vs.canDeclare name = true ↔ name ≠ "" ∧ Entries.get? vs name = none := by
    simp [canDeclare, Entries.contains]
  rw [apply, Variables.declare]
  by_cases h : vs.canDeclare name = true
  · rw [if_pos h, if_pos (hcan.1 h)]
    exact Entries.put_of_notMem (Entries.get?_eq_none_iff.1 (hcan.1 h).2) _
  · rw [if_neg h, if_neg (mt hcan.2 h)]

end Write

/-! ## Logs -/

/-- The writes to a store, the latest one first. -/
abbrev Log := List Write

/-- **The variables that a log leaves.** -/
def replay : Log → Variables
  | [] => []
  | w :: older => w.apply (replay older)

/-- **The last write of a name.** -/
def lastWrite? (name : String) : Log → Option Write
  | [] => none
  | w :: older => if w.touches (replay older) name then some w else lastWrite? name older

/-- When a name came to be there: with which write of the log, and as which of the names that came with
it. -/
structure Moment where
  write : Nat
  place : Nat
deriving DecidableEq

/-- One moment before another. -/
def Moment.Before (s t : Moment) : Prop := s.write < t.write ∨ (s.write = t.write ∧ s.place < t.place)

/-- Since when a name is there that is written as the `now`th write: since before, if it was there; a
snapshot brings its names in anew, in its order. -/
def Write.since (now : Nat) (name : String) (before : Option Moment) : Write → Option Moment
  | .set _ _ | .declare _ => before.or (some ⟨now, 0⟩)
  | .remove _ => none
  | .restore snapshot =>
    if name ∈ Entries.keys snapshot then some ⟨now, (Entries.keys snapshot).idxOf name⟩ else none

/-- **Since when a name is there**: since the first write of it after it was last absent, or since the
last time that all variables were restored. -/
def since? (name : String) : Log → Option Moment
  | [] => none
  | w :: older =>
    if w.touches (replay older) name then w.since older.length name (since? name older)
    else since? name older

/-! ## What a log shows -/

/-- **Names as a log tells**: those that are there, an earlier one first. -/
structure Ordered (log : Log) (names : List String) : Prop where
  there : ∀ x, x ∈ names ↔ (since? x log).isSome
  inOrder : names.Pairwise fun x y => ∀ s ∈ since? x log, ∀ t ∈ since? y log, s.Before t

/-- **Variables as a log tells**: each holds what the last write of its name left, every name that is
there is listed once, and an earlier one comes first. -/
structure Shows (log : Log) (vs : Variables) : Prop where
  value : ∀ x, Entries.get? vs x = (lastWrite? x log).bind (Write.leaves? x)
  listed : ∀ x, x ∈ vs.names ↔ (Entries.get? vs x).isSome
  once : vs.names.Nodup
  ordered : Ordered log vs.names

variable {log older : Log} {vs : Variables} {w : Write} {x y name : String}

theorem nodup_replay : ∀ log : Log, (Entries.keys (replay log)).Nodup
  | [] => List.nodup_nil
  | w :: older => w.nodup_apply (nodup_replay older)

/-- A variable holds what the last write of its name left. -/
theorem get?_replay (h : ∀ w ∈ log, w.Proper) (x : String) :
    Entries.get? (replay log) x = (lastWrite? x log).bind (Write.leaves? x) := by
  induction log with
  | nil => rfl
  | cons w older ih =>
    obtain ⟨hw, holder⟩ := List.forall_mem_cons.1 h
    rw [replay, Write.get?_apply hw (nodup_replay older), ih holder, lastWrite?]
    split <;> rfl

/-- No moment is later than the log is long. -/
theorem write_lt_of_since? {t : Moment} (h : since? x log = some t) : t.write < log.length := by
  induction log with
  | nil => nomatch h
  | cons w older ih =>
    rw [List.length_cons]
    rw [since?] at h
    -- the name was written now, or before
    split at h
    · cases w with
      | set | declare =>
        rcases Option.or_eq_some_iff.1 h with h | ⟨-, h⟩
        · exact Nat.lt_succ_of_lt (ih h)
        · obtain rfl := Option.some.inj h
          exact Nat.lt_succ_self _
      | remove => nomatch h
      | restore snapshot =>
        rw [Write.since] at h
        split at h
        · obtain rfl := Option.some.inj h
          exact Nat.lt_succ_self _
        · nomatch h
    · exact Nat.lt_succ_of_lt (ih h)

/-- A write of another name leaves the moment of a name. -/
theorem since?_of_not_touches (h : w.touches (replay older) x = false) :
    since? x (w :: older) = since? x older := by
  rw [since?, h]
  rfl

/-- A write that leaves all moments leaves the order. -/
theorem Ordered.congr {names : List String} (h : Ordered older names)
    (hsame : ∀ x, since? x log = since? x older) : Ordered log names := by
  obtain ⟨hthere, horder⟩ := h
  simp only [← hsame] at hthere horder
  exact ⟨hthere, horder⟩

/-- **A name that is written**: one that is there stays where it is, and a new one comes last. -/
theorem ordered_put (h : Ordered older (Entries.keys vs))
    (hself : since? y (w :: older) = (since? y older).or (some ⟨older.length, 0⟩))
    (hother : ∀ x, x ≠ y → since? x (w :: older) = since? x older) (value : Json) :
    Ordered (w :: older) (Entries.keys (Entries.put vs y value)) := by
  rw [Entries.keys_put]
  -- a name that is there keeps its place, and a new one goes to the end
  by_cases hy : y ∈ Entries.keys vs
  · obtain ⟨t, ht⟩ := Option.isSome_iff_exists.1 ((h.there y).1 hy)
    have hsame : ∀ x, since? x (w :: older) = since? x older := by
      intro x
      by_cases hx : x = y
      · rw [hx, hself, ht, Option.some_or]
      · exact hother x hx
    rw [if_pos hy]
    exact h.congr hsame
  · have hnone : since? y older = none := Option.not_isSome_iff_eq_none.1 (mt (h.there y).2 hy)
    rw [hnone, Option.none_or] at hself
    have hne : ∀ x ∈ Entries.keys vs, x ≠ y := fun x hx hxy => hy (hxy ▸ hx)
    rw [if_neg hy]
    refine ⟨fun x => ?_, ?_⟩
    · rw [List.mem_append, List.mem_singleton]
      by_cases hx : x = y
      · rw [hx, hself]
        simp
      · rw [hother x hx, h.there x]
        simp [hx]
    · refine List.pairwise_append.2 ⟨?_, List.pairwise_singleton _ _, ?_⟩
      · refine h.inOrder.imp_of_mem fun {a b} ha hb hab => ?_
        rw [hother a (hne a ha), hother b (hne b hb)]
        exact hab
      · intro a ha b hb s hs t ht
        rw [hother a (hne a ha)] at hs
        rw [List.mem_singleton.1 hb, hself] at ht
        obtain rfl := Option.some.inj ht
        exact Or.inl (write_lt_of_since? hs)

/-- **A name that is removed** is gone, and the others stay in their order. -/
theorem ordered_erase (hnodup : (Entries.keys vs).Nodup) (h : Ordered older (Entries.keys vs))
    (hself : since? y (w :: older) = none)
    (hother : ∀ x, x ≠ y → since? x (w :: older) = since? x older) :
    Ordered (w :: older) (Entries.keys (Entries.erase vs y)) := by
  have hmem : ∀ x, x ∈ (Entries.keys vs).erase y ↔ x ≠ y ∧ x ∈ Entries.keys vs := fun x =>
    hnodup.mem_erase_iff
  rw [Entries.keys_erase]
  refine ⟨fun x => ?_, ?_⟩
  · rw [hmem]
    by_cases hx : x = y
    · rw [hx, hself]
      simp
    · rw [hother x hx, h.there x]
      simp [hx]
  · refine (h.inOrder.sublist List.erase_sublist).imp_of_mem fun {a b} ha hb hab => ?_
    rw [hother a ((hmem a).1 ha).1, hother b ((hmem b).1 hb).1]
    exact hab

/-- **Names of a snapshot** come in all at once, in its order. -/
theorem ordered_restore {snapshot : Json.Fields} (hnodup : (Entries.keys snapshot).Nodup)
    (older : Log) : Ordered (.restore snapshot :: older) (Entries.keys snapshot) := by
  have hsince : ∀ x, since? x (.restore snapshot :: older) =
      if x ∈ Entries.keys snapshot then
        some ⟨older.length, (Entries.keys snapshot).idxOf x⟩ else none := fun x => rfl
  refine ⟨fun x => ?_, ?_⟩
  · rw [hsince]
    split <;> simp [*]
  · refine List.pairwise_iff_getElem.2 fun i j hi hj hij s hs t ht => ?_
    rw [hsince, if_pos (List.getElem_mem hi), List.Nodup.idxOf_getElem hnodup] at hs
    rw [hsince, if_pos (List.getElem_mem hj), List.Nodup.idxOf_getElem hnodup] at ht
    obtain rfl := Option.some.inj hs
    obtain rfl := Option.some.inj ht
    exact Or.inr ⟨rfl, hij⟩

/-- **The names of a log**, in the order in which they came to be there. -/
theorem ordered_replay (h : ∀ w ∈ log, w.Proper) : Ordered log (Entries.keys (replay log)) := by
  induction log with
  | nil => exact ⟨fun x => iff_of_false List.not_mem_nil Bool.false_ne_true, List.Pairwise.nil⟩
  | cons w older ih =>
    obtain ⟨hw, holder⟩ := List.forall_mem_cons.1 h
    have hbefore := ih holder
    -- a name is put, or erased, or all names come anew
    cases w with
    | set y value =>
      refine ordered_put hbefore ?_ (fun x hx => since?_of_not_touches ?_) value
      · rw [since?, Write.touches, beq_self_eq_true]
        rfl
      · exact beq_eq_false_iff_ne.2 (Ne.symm hx)
    | declare y =>
      rw [replay, Write.apply, Variables.declare]
      cases hcan : (replay older).canDeclare y with
      | true =>
        refine ordered_put hbefore ?_ (fun x hx => since?_of_not_touches ?_) (.string "")
        · rw [since?, Write.touches, beq_self_eq_true, hcan]
          rfl
        · rw [Write.touches, beq_eq_false_iff_ne.2 (Ne.symm hx), Bool.false_and]
      | false =>
        exact hbefore.congr fun x =>
          since?_of_not_touches (by rw [Write.touches, hcan, Bool.and_false])
    | remove y =>
      refine ordered_erase (nodup_replay older) hbefore ?_ fun x hx => since?_of_not_touches ?_
      · rw [since?, Write.touches, beq_self_eq_true]
        rfl
      · exact beq_eq_false_iff_ne.2 (Ne.symm hx)
    | restore snapshot =>
      rw [replay, Write.apply, ofSnapshot_eq_self hw]
      exact ordered_restore hw older

/-- **The variables that a log leaves** are as the log tells. -/
theorem shows_replay (h : ∀ w ∈ log, w.Proper) : Shows log (replay log) where
  value := get?_replay h
  listed x := by
    rw [Option.isSome_iff_ne_none, ne_eq, Entries.get?_eq_none_iff, not_not]
    rfl
  once := nodup_replay log
  ordered := ordered_replay h

end PageBuilder.Variables
