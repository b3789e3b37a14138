/-
  The order of the fields that a kind does not model.

  A merge clears a field by filling its place with the last field of the object.  The fields that a
  kind models are written in an order of their own, but all others stay as they come, so that one of
  them may pass others on its way.

  Programs:       `others` — the fields that are not modelled; `disturbed` — whether a merge lets one of
                  them pass another.
  Specification:  `keepsOrder_merged?` — a merge that is not disturbed keeps the order, and one that
                  clears no more than one field keeps it only so.
  Crux:           `inOrder_change` — a change that is not disturbed leads to a part of the order that
                  was expected before it, and so does a whole merge by induction on its changes.
-/
import PageBuilder.Markup.Attribute
import PageBuilder.Proofs.Props.Merge

namespace PageBuilder

/-! ## Keys after one is removed -/

namespace Entries

variable {κ α : Type} [DecidableEq κ] {es : Entries κ α} {x : κ}

/-- Taking out a key that is not there changes nothing. -/
theorem swapErase_of_notMem (h : x ∉ keys es) : swapErase es x = es := by
  induction es with
  | nil => rfl
  | cons e r ih =>
    obtain ⟨k, v⟩ := e
    obtain ⟨hk, hr⟩ := not_or.1 (mt List.mem_cons.2 h)
    rw [swapErase, if_neg (Ne.symm hk), ih hr]

end Entries

/-- No two different orders of two are found in a list that has nothing twice. -/
theorem not_pair_sublist {α : Type} {l : List α} (hl : l.Nodup) {y z : α}
    (h : [y, z].Sublist l) : ¬ [z, y].Sublist l := by
  induction l with
  | nil => cases h
  | cons a l ih =>
    -- the first element is in one of the pairs at most, and then only in front
    obtain ⟨ha, hl⟩ := List.nodup_cons.1 hl
    intro h'
    cases h with
    | cons _ h =>
      cases h' with
      | cons _ h' => exact ih hl h h'
      | cons_cons _ h' => exact ha (h.subset (by simp))
    | cons_cons _ h =>
      cases h' with
      | cons _ h' => exact ha (h'.subset (by simp))
      | cons_cons _ h' => exact ha (h.subset (by simp))

namespace Props

/-! ## One change -/

section

variable {counted : String → Bool} {m changes : Json.Fields} {x : String}

/-- **The keys that are counted**, in order. -/
def countedKeys (counted : String → Bool) (m : Json.Fields) : List String :=
  (Entries.keys m).filter counted

/-- The keys that count, of two lists one behind the other. -/
theorem countedKeys_append (l m : Json.Fields) :
    countedKeys counted (l ++ m) = countedKeys counted l ++ countedKeys counted m := by
  unfold countedKeys
  rw [Entries.keys_append, List.filter_append]

theorem countedKeys_cons (e : String × Json) (m : Json.Fields) :
    countedKeys counted (e :: m) = [e.1].filter counted ++ countedKeys counted m :=
  countedKeys_append [e] m

/-- **Whether clearing a key disturbs** those that are counted: the last key, which fills the gap, and
one that it passes are both counted. -/
def disturbs (counted : String → Bool) : List String → String → Bool
  | [], _ => false
  | k :: r, x =>
    if k = x then r.getLast?.any counted && r.dropLast.any counted else disturbs counted r x

/-- Only a key that is there can disturb the others. -/
theorem mem_of_disturbs {keys : List String} (h : disturbs counted keys x = true) : x ∈ keys := by
  induction keys with
  | nil => nomatch h
  | cons k r ih =>
    rw [disturbs] at h
    split at h
    · next hk => exact hk ▸ List.mem_cons_self
    · exact List.mem_cons_of_mem _ (ih h)

/-- Clearing the first key: the last one comes to its place. -/
theorem disturbs_concat (k : String) (front : Json.Fields) (e : String × Json) :
    disturbs counted (k :: Entries.keys (front ++ [e])) k
      = (counted e.1 && (Entries.keys front).any counted) := by
  have hkeys : Entries.keys (front ++ [e]) = Entries.keys front ++ [e.1] := Entries.keys_append _ _
  rw [disturbs, if_pos rfl, hkeys, List.getLast?_concat, List.dropLast_concat, Option.any_some]

/-- A key that is cleared keeps the order of the others unless it disturbs them. -/
theorem countedKeys_swapErase (h : disturbs counted (Entries.keys m) x = false) :
    (countedKeys counted (Entries.swapErase m x)).Sublist (countedKeys counted m) := by
  induction m with
  | nil => exact List.Sublist.refl _
  | cons d r ih =>
    obtain ⟨k, v⟩ := d
    rw [Entries.swapErase]
    split
    · next hk =>
      subst hk
      cases hlast : r.getLast? with
      | none => exact List.nil_sublist _
      | some e =>
        obtain ⟨front, rfl⟩ := List.getLast?_eq_some_iff.1 hlast
        have hpass : (counted e.1 && (Entries.keys front).any counted) = false :=
          (disturbs_concat k front e).symm.trans h
        rw [List.dropLast_concat, countedKeys_cons, countedKeys_cons, countedKeys_append]
        refine List.Sublist.trans ?_ (List.sublist_append_right _ _)
        -- one of the two that change places is not counted
        rcases Bool.and_eq_false_iff.1 hpass with he | hfront
        · have hnone : [e.1].filter counted = [] := by simp [he]
          rw [hnone, List.nil_append]
          exact List.sublist_append_left _ _
        · have hnone : countedKeys counted front = [] := by
            simpa [countedKeys] using hfront
          rw [hnone, List.append_nil]
          exact List.Sublist.refl _
    · next hk =>
      have hrest : disturbs counted (Entries.keys r) x = false := by
        rwa [Entries.keys, List.map_cons, disturbs, if_neg hk] at h
      rw [countedKeys_cons, countedKeys_cons]
      exact (ih hrest).append_left _

/-- A key that disturbs others puts one of them in front of another one that it was behind. -/
theorem exists_pair_of_disturbs (h : disturbs counted (Entries.keys m) x = true) :
    ∃ y z, [y, z].Sublist (countedKeys counted m) ∧
      [z, y].Sublist (countedKeys counted (Entries.swapErase m x)) := by
  induction m with
  | nil => nomatch h
  | cons d r ih =>
    obtain ⟨k, v⟩ := d
    rw [Entries.swapErase]
    split
    · next hk =>
      subst hk
      -- the key comes first here: the last entry takes its place, in front of all others
      cases hlast : r.getLast? with
      | none =>
        rw [List.getLast?_eq_none_iff.1 hlast] at h
        simp [Entries.keys, disturbs] at h
      | some e =>
        obtain ⟨front, rfl⟩ := List.getLast?_eq_some_iff.1 hlast
        have hpass : (counted e.1 && (Entries.keys front).any counted) = true :=
          (disturbs_concat k front e).symm.trans h
        obtain ⟨he, hfront⟩ := Bool.and_eq_true_iff.1 hpass
        obtain ⟨y, hy, hcounted⟩ := List.any_eq_true.1 hfront
        have hmem : [y].Sublist (countedKeys counted front) :=
          List.singleton_sublist.2 (List.mem_filter.2 ⟨hy, hcounted⟩)
        have hone : [e.1].filter counted = [e.1] := by simp [he]
        refine ⟨y, e.1, ?_, ?_⟩
        · have hback : [e.1].Sublist (countedKeys counted [e]) := by
            show [e.1].Sublist ([e.1].filter counted)
            rw [hone]
          rw [countedKeys_cons, countedKeys_append]
          exact (hmem.append hback).trans (List.sublist_append_right _ _)
        · rw [List.dropLast_concat, countedKeys_cons, hone]
          exact hmem.cons_cons e.1
    · next hk =>
      -- the key comes later, and the entry that stays in front is in both pairs
      have hrest : disturbs counted (Entries.keys r) x = true := by
        rwa [Entries.keys, List.map_cons, disturbs, if_neg hk] at h
      obtain ⟨y, z, hold, hnew⟩ := ih hrest
      rw [countedKeys_cons, countedKeys_cons]
      exact ⟨y, z, hold.trans (List.sublist_append_right _ _),
        hnew.trans (List.sublist_append_right _ _)⟩

/-! ## A whole merge -/

/-- **The order that is expected**: the keys that there are, then those that are new. -/
def inOrder (keys mentioned : List String) : List String :=
  keys ++ mentioned.filter fun x => !keys.contains x

/-- The order that is expected, with one more key that is mentioned first. -/
theorem inOrder_cons (keys mentioned : List String) (x : String) :
    inOrder keys (x :: mentioned) = keys ++ [x].filter (fun x => !keys.contains x)
      ++ mentioned.filter (fun x => !keys.contains x) := by
  have hsplit : x :: mentioned = [x] ++ mentioned := rfl
  rw [inOrder, hsplit, List.filter_append, List.append_assoc]

theorem nodup_inOrder {keys mentioned : List String} (hkeys : keys.Nodup)
    (hmentioned : mentioned.Nodup) : (inOrder keys mentioned).Nodup := by
  refine List.nodup_append.2 ⟨hkeys, hmentioned.sublist List.filter_sublist, ?_⟩
  rintro y hy z hz rfl
  have hnew := (List.mem_filter.1 hz).2
  rw [List.contains_iff_mem.2 hy] at hnew
  nomatch hnew

/-- **Whether a change disturbs** the keys that are counted. -/
def stirs (counted : String → Bool) (m : Json.Fields) (e : String × Json) : Bool :=
  e.2.isNull && disturbs counted (Entries.keys m) e.1

/-- Whether one of several changes does. -/
def disturbed (counted : String → Bool) : Json.Fields → Json.Fields → Bool
  | _, [] => false
  | m, e :: r => stirs counted m e || disturbed counted (change m e) r

/-- A change concerns no other key. -/
theorem mem_keys_change_iff (hm : (Entries.keys m).Nodup) {e : String × Json} (hx : e.1 ≠ x) :
    x ∈ Entries.keys (change m e) ↔ x ∈ Entries.keys m := by
  rw [← not_iff_not, ← Entries.get?_eq_none_iff, ← Entries.get?_eq_none_iff, get?_change hm,
    if_neg hx]

/-- One change that does not disturb. -/
theorem countedKeys_change {e : String × Json} (h : stirs counted m e = false) :
    (countedKeys counted (change m e)).Sublist
      (countedKeys counted m ++ [e.1].filter fun x => !(countedKeys counted m).contains x) := by
  unfold change
  -- a null takes the key out, which stirs nothing; any other value is put behind, if the key is new
  cases hnull : e.2.isNull with
  | true =>
    rw [stirs, hnull, Bool.true_and] at h
    exact (countedKeys_swapErase h).trans (List.sublist_append_left _ _)
  | false =>
    show (countedKeys counted (Entries.put m e.1 e.2)).Sublist _
    unfold countedKeys
    rw [Entries.keys_put]
    split
    · exact List.sublist_append_left _ _
    · next hnew =>
      have hfresh : ¬ e.1 ∈ (Entries.keys m).filter counted := fun hmem =>
        hnew (List.mem_filter.1 hmem).1
      have hone : [e.1].filter (fun x => !((Entries.keys m).filter counted).contains x) = [e.1] := by
        rw [List.filter_eq_self, List.forall_mem_singleton, Bool.not_eq_true', ← Bool.not_eq_true,
          List.contains_iff_mem]
        exact hfresh
      rw [List.filter_append, hone]
      exact List.filter_sublist.append_left _

/-- **A change that does not disturb** leads to a part of the order that was expected before it. -/
theorem inOrder_change {e : String × Json} {r : Json.Fields} (hm : (Entries.keys m).Nodup)
    (he : e.1 ∉ Entries.keys r) (h : stirs counted m e = false) :
    (inOrder (countedKeys counted (change m e)) (Entries.keys r)).Sublist
      (inOrder (countedKeys counted m) (Entries.keys (e :: r))) := by
  -- the change does not touch the keys that are mentioned after it
  have hsame : (Entries.keys r).filter (fun x => !(countedKeys counted (change m e)).contains x)
      = (Entries.keys r).filter fun x => !(countedKeys counted m).contains x := by
    refine List.filter_congr fun y hy => ?_
    have hne : e.1 ≠ y := fun heq => he (heq ▸ hy)
    have hmem : y ∈ countedKeys counted (change m e) ↔ y ∈ countedKeys counted m := by
      unfold countedKeys
      rw [List.mem_filter, List.mem_filter, mem_keys_change_iff hm hne]
    rw [Bool.eq_iff_iff, Bool.not_eq_true', Bool.not_eq_true', ← Bool.not_eq_true,
      ← Bool.not_eq_true, List.contains_iff_mem, List.contains_iff_mem, hmem]
  have hcons : Entries.keys (e :: r) = e.1 :: Entries.keys r := rfl
  rw [hcons, inOrder_cons, inOrder, hsame]
  exact (countedKeys_change h).append_right _

/-- **Changes that do not disturb** keep the order. -/
theorem countedKeys_changes (hchanges : (Entries.keys changes).Nodup) (hm : (Entries.keys m).Nodup)
    (h : disturbed counted m changes = false) :
    (countedKeys counted (changes.foldl change m)).Sublist
      (inOrder (countedKeys counted m) (Entries.keys changes)) := by
  induction changes generalizing m with
  | nil => exact List.sublist_append_left _ _
  | cons e r ih =>
    obtain ⟨he, hr⟩ : e.1 ∉ Entries.keys r ∧ (Entries.keys r).Nodup := List.nodup_cons.1 hchanges
    obtain ⟨hfirst, hrest⟩ := Bool.or_eq_false_iff.1 h
    exact (ih hr (nodup_keys_change hm e) hrest).trans (inOrder_change hm he hfirst)

/-- The fields that are cleared. -/
def cleared (m changes : Json.Fields) : Json.Fields :=
  changes.filter fun e => e.2.isNull && (Entries.keys m).contains e.1

/-- A change of another key clears none of the keys that are cleared later. -/
theorem cleared_change {e : String × Json} {r : Json.Fields} (hm : (Entries.keys m).Nodup)
    (he : e.1 ∉ Entries.keys r) : cleared (change m e) r = cleared m r := by
  refine List.filter_congr fun d hd => ?_
  have hne : e.1 ≠ d.1 := fun heq => he (heq ▸ List.mem_map_of_mem hd)
  rw [Bool.eq_iff_iff, Bool.and_eq_true, Bool.and_eq_true, List.contains_iff_mem,
    List.contains_iff_mem, mem_keys_change_iff hm hne]

/-- Changes that clear nothing add keys at the end. -/
theorem keys_sublist_of_cleared (hchanges : (Entries.keys changes).Nodup)
    (hm : (Entries.keys m).Nodup) (h : cleared m changes = []) :
    (Entries.keys m).Sublist (Entries.keys (changes.foldl change m)) := by
  induction changes generalizing m with
  | nil => exact List.Sublist.refl _
  | cons e r ih =>
    obtain ⟨he, hr⟩ : e.1 ∉ Entries.keys r ∧ (Entries.keys r).Nodup := List.nodup_cons.1 hchanges
    rw [cleared, List.filter_cons] at h
    split at h
    · nomatch h
    · next hstays =>
      have hrest : cleared (change m e) r = [] := (cleared_change hm he).trans h
      refine List.Sublist.trans ?_ (ih hr (nodup_keys_change hm e) hrest)
      -- nothing is cleared, so a null is for a key that is not there
      unfold change
      split
      · next hnull =>
        have hnew : e.1 ∉ Entries.keys m := by
          rw [hnull, Bool.true_and, List.contains_iff_mem] at hstays
          exact hstays
        rw [Entries.swapErase_of_notMem hnew]
      · rw [Entries.keys_put]
        split
        · exact List.Sublist.refl _
        · exact List.sublist_append_left _ _

/-- **One field that is cleared** and disturbs the others leaves two of them in the other order. -/
theorem exists_pair_of_disturbed (hchanges : (Entries.keys changes).Nodup)
    (hm : (Entries.keys m).Nodup) (hone : (cleared m changes).length ≤ 1)
    (h : disturbed counted m changes = true) :
    ∃ y z, [y, z].Sublist (inOrder (countedKeys counted m) (Entries.keys changes)) ∧
      [z, y].Sublist (countedKeys counted (changes.foldl change m)) := by
  induction changes generalizing m with
  | nil => nomatch h
  | cons e r ih =>
    obtain ⟨he, hr⟩ : e.1 ∉ Entries.keys r ∧ (Entries.keys r).Nodup := List.nodup_cons.1 hchanges
    have hkeys : (Entries.keys (change m e)).Nodup := nodup_keys_change hm e
    have hcleared : cleared (change m e) r = cleared m r := cleared_change hm he
    cases hfirst : stirs counted m e with
    | true =>
      obtain ⟨hnull, hdisturbs⟩ := Bool.and_eq_true_iff.1 hfirst
      have hchange : change m e = Entries.swapErase m e.1 := if_pos hnull
      have hclears : cleared m (e :: r) = e :: cleared m r := by
        refine List.filter_cons_of_pos ?_
        rw [hnull, List.contains_iff_mem.2 (mem_of_disturbs hdisturbs)]
        rfl
      have hrest : cleared (change m e) r = [] := by
        rw [hclears, List.length_cons] at hone
        exact hcleared.trans (List.length_eq_zero_iff.1 (by omega))
      obtain ⟨y, z, hold, hnew⟩ := exists_pair_of_disturbs hdisturbs
      rw [← hchange] at hnew
      -- nothing else is cleared, so the two stay as they are now
      have hstays := (keys_sublist_of_cleared hr hkeys hrest).filter counted
      exact ⟨y, z, hold.trans (List.sublist_append_left _ _), hnew.trans hstays⟩
    | false =>
      rw [disturbed, hfirst, Bool.false_or] at h
      have hrest : (cleared (change m e) r).length ≤ 1 := by
        rw [hcleared]
        exact le_trans (((List.sublist_cons_self e r).filter _).length_le) hone
      obtain ⟨y, z, hold, hnew⟩ := ih hr hkeys hrest h
      exact ⟨y, z, hold.trans (inOrder_change hm he hfirst), hnew⟩

end

/-! ## The fields that are not modelled -/

variable {p q : Props} {a m : Json.Fields}

/-- **The fields that are not modelled**, as they came. -/
def others : Props → Json.Fields
  | .known _ s => s.others
  | .unknown _ fs => fs

/-- Whether a key is not modelled; without a kind, none is. -/
def isOther (p : Props) (x : String) : Bool :=
  match p.kind? with
  | some k => !k.keys.contains x
  | none => true

/-- The keys that a kind does not model are kept, in the order of the object. -/
theorem keys_others_of_remake? (h : p.remake? m = some q) :
    Entries.keys q.others = countedKeys p.isOther m := by
  have hfilter : ∀ free : String → Bool,
      Entries.keys (m.filter fun e => free e.1) = countedKeys free m := by
    intro free
    unfold countedKeys Entries.keys
    rw [List.filter_map]
    rfl
  -- a kind keeps the fields that it does not model, props without a kind keep all
  cases p with
  | known k t =>
    obtain ⟨s, hs, rfl⟩ := Option.map_eq_some_iff.1 h
    show Entries.keys s.others = _
    rw [(Settings.parse?_eq_some_iff.1 hs).2.2]
    exact hfilter fun x => !k.keys.contains x
  | unknown t fs =>
    obtain rfl := Option.some.inj h
    have hall : (m.filter fun e => (unknown t fs).isOther e.1) = m :=
      List.filter_eq_self.2 fun _ _ => rfl
    rw [← hfilter, hall]
    rfl

/-- **Whether a merge keeps the order**: the fields that are not modelled stand as they stood, and
behind them those that are new, as the merge mentions them. -/
def KeepsOrder (p : Props) (a : Json.Fields) (q : Props) : Prop :=
  (Entries.keys q.others).Sublist (inOrder (Entries.keys p.others) (Entries.keys a))

instance (p : Props) (a : Json.Fields) (q : Props) : Decidable (p.KeepsOrder a q) :=
  inferInstanceAs (Decidable (List.Sublist _ _))

/-- **The order of unmodelled fields under a merge.**

A merge keeps the order unless it is disturbed: unless, when one of its nulls clears a field, the last
field behind it is not modelled and passes another one that is not.  Where no more than one field is
cleared, a merge that is disturbed does not keep the order. -/
theorem keepsOrder_merged? (hp : p.Obtained) (ha : (Json.object a).Legible)
    (hq : p.merged? a = .ok q) :
    (disturbed p.isOther p.toFields a = false → p.KeepsOrder a q) ∧
    ((cleared p.toFields a).length ≤ 1 →
      (p.KeepsOrder a q ↔ disturbed p.isOther p.toFields a = false)) := by
  have hkeys : (Entries.keys a).Nodup := (Json.isTidy_object.1 ha.tidy).1
  have hnodup : (Entries.keys p.toFields).Nodup := hp.sound.nodup
  have hkeeps : p.KeepsOrder a q ↔
      (countedKeys p.isOther (a.foldl change p.toFields)).Sublist
        (inOrder (countedKeys p.isOther p.toFields) (Entries.keys a)) := by
    unfold KeepsOrder
    rw [keys_others_of_remake? (merged?_eq_ok_iff.1 hq), keys_others_of_remake? hp.sound.reads]
  have hif : disturbed p.isOther p.toFields a = false → p.KeepsOrder a q := fun h =>
    hkeeps.2 (countedKeys_changes hkeys hnodup h)
  refine ⟨hif, fun hone => ⟨fun h => ?_, hif⟩⟩
  -- a disturbance brings two keys into the other order, and no list has a pair both ways round
  rw [← Bool.not_eq_true]
  intro hdisturbed
  obtain ⟨y, z, hold, hnew⟩ := exists_pair_of_disturbed hkeys hnodup hone hdisturbed
  have hexpected : (inOrder (countedKeys p.isOther p.toFields) (Entries.keys a)).Nodup :=
    nodup_inOrder (hnodup.sublist List.filter_sublist) hkeys
  exact not_pair_sublist hexpected hold (hnew.trans (hkeeps.1 h))

/-- An input with three fields that are not modelled. -/
def trackedInput : Props := .recover "Input" [("placeholder", .string "Name"),
  ("data-a", .string "1"), ("data-b", .string "2"), ("data-c", .string "3")]

/-- Clearing the last field disturbs nothing; clearing the first one of the three does. -/
theorem keepsOrder_merged?_trackedInput :
    let a : Json.Fields := [("title", .string "Who"), ("placeholder", .string ""), ("data-c", .null)]
    let b : Json.Fields := [("data-a", .null)]
    trackedInput.Obtained ∧ (Json.object a).Legible ∧ (Json.object b).Legible ∧
    (∃ q, trackedInput.merged? a = .ok q ∧
      disturbed trackedInput.isOther trackedInput.toFields a = false ∧ trackedInput.KeepsOrder a q) ∧
    ∃ q, trackedInput.merged? b = .ok q ∧ (cleared trackedInput.toFields b).length ≤ 1 ∧
      disturbed trackedInput.isOther trackedInput.toFields b = true ∧ ¬ trackedInput.KeepsOrder b q := by
  intro a b
  have hinput : trackedInput.Obtained := obtained_recover "Input" (by decide +kernel)
  have ha : (Json.object a).Legible := by decide +kernel
  have hb : (Json.object b).Legible := by decide +kernel
  have hcalm : disturbed trackedInput.isOther trackedInput.toFields a = false := by decide +kernel
  have hone : (cleared trackedInput.toFields b).length ≤ 1 := by decide +kernel
  have hstirred : disturbed trackedInput.isOther trackedInput.toFields b = true := by decide +kernel
  obtain ⟨q, hq⟩ := (exists_merged?_iff hinput.sound (a := a) (by decide)).2 (by decide +kernel)
  obtain ⟨r, hr⟩ := (exists_merged?_iff hinput.sound (a := b) (by decide)).2 (by decide +kernel)
  refine ⟨hinput, ha, hb, ⟨q, hq, hcalm, (keepsOrder_merged? hinput ha hq).1 hcalm⟩, r, hr, hone,
    hstirred, fun h => ?_⟩
  rw [((keepsOrder_merged? hinput hb hr).2 hone).1 h] at hstirred
  nomatch hstirred

/-- **Clearing a field reorders others**: the placeholder is modelled, and the last of the three fields
that are not passes the two others, as its attribute does in an element that is exported. -/
theorem not_keepsOrder_trackedInput :
    let a : Json.Fields := [("placeholder", .null)]
    let q : Props := .recover "Input"
      [("data-c", .string "3"), ("data-a", .string "1"), ("data-b", .string "2")]
    trackedInput.Obtained ∧ (Json.object a).Legible ∧ trackedInput.merged? a = .ok q ∧
    ¬ trackedInput.KeepsOrder a q ∧
    Markup.Attribute.texts .react (Markup.Attribute.ofProps .react [] trackedInput.toFields)
      = " placeholder=\"Name\" data-a=\"1\" data-b=\"2\" data-c=\"3\"" ∧
    Markup.Attribute.texts .react (Markup.Attribute.ofProps .react [] q.toFields)
      = " data-c=\"3\" data-a=\"1\" data-b=\"2\"" := by
  intro a q
  refine ⟨obtained_recover "Input" (by decide +kernel), by decide +kernel, by decide +kernel,
    by decide +kernel, by decide +kernel, by decide +kernel⟩

end Props
end PageBuilder
