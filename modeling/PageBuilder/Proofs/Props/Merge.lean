/-
  Merging props.

  A merge writes props as an object, changes some of its fields, and reads what comes out.  Values are
  settled on the way: a whole number is written as a binary64 one, and a list of rows that is cleared
  as an empty list.

  Programs:       `settled` — what a change leaves under its key; `accepts` — whether a field is read
                  alone.
  Specification:  `exists_merged?_iff` — a merge is accepted when every value that it writes is;
                  `get?_of_merged?_merged?` — two merges in turn leave what one merge of both leaves.
  Crux:           `get?_of_remake?` — what is written under a key again depends on what was found
                  under that key, and on nothing else; so the laws hold because they hold of `settled`.
-/
import PageBuilder.Proofs.Json.Same
import PageBuilder.Proofs.Node.Tidy
import PageBuilder.Proofs.Props.Recovery

namespace PageBuilder

/-! ## Props that are the same -/

/-- A stable cell is the same as itself. -/
theorem Format.same_self {f : Format} {c : f.Cell} (h : f.isStable c = true) :
    f.same c c = true := by
  cases f with
  | number =>
    cases c with
    | none => rfl
    | some x => exact Binary64.same_self h
  | _ => exact beq_self_eq_true c

/-- Stable cells are the same as themselves; a cell without a number would do as well. -/
theorem Record.same_self : ∀ (fs : List Field) {r : Record fs}, isStable fs r = true →
    same fs r r = true
  | [], _, _ => rfl
  | f :: fs, (c, r), h => by
    obtain ⟨hc, hr⟩ := Bool.and_eq_true_iff.1 h
    rw [same, Format.same_self hc, same_self fs hr]
    rfl

/-- Settings that are read from what is written of them are the same if the same is written, in
whatever order. -/
theorem Settings.same_of_get? {k : Kind} {s t : Settings k} (hs : parse? k s.toFields = some s)
    (ht : parse? k t.toFields = some t) (htidy : (Json.object s.toFields).isTidy = true)
    (hproper : ∀ e ∈ s.toFields, e.2.isProper = true) (hkeys : (Entries.keys t.toFields).Nodup)
    (h : ∀ x, Entries.get? s.toFields x = Entries.get? t.toFields x) : s.same t = true := by
  obtain ⟨hcells, hclass, -⟩ := parse?_eq_some_iff.1 hs
  obtain ⟨hcells', hclass', -⟩ := parse?_eq_some_iff.1 ht
  -- cells and class name are read off the keys, so they agree; the others agree as a finite map
  have hcell : s.cells = t.cells := by
    rw [Record.read?_congr fun f _ => h f.key] at hcells
    exact Option.some.inj (hcells.symm.trans hcells')
  have hname : s.className = t.className := by
    rw [Record.readField?_congr (h Field.className.key)] at hclass
    exact Option.some.inj (hclass.symm.trans hclass')
  have hrest : Json.same (.object s.others) (.object t.others) = true := by
    have hsublist : s.others.Sublist s.toFields := others_of_parse? hs
    refine Json.same_object (Json.isTidy_of_sublist hsublist htidy) ?_ ?_ fun x => ?_
    · exact Json.holdProper_iff.2 fun e he => hproper e (hsublist.subset he)
    · exact hkeys.sublist ((others_of_parse? ht).map _)
    · rw [get?_others hs, get?_others ht, h]
  have hstable : s.Stable := stable_of_parse? (fun e he _ => hproper e he) hs
  rw [same, ← hcell, ← hname, Record.same_self k.fields hstable.cells, beq_self_eq_true, hrest]
  rfl

namespace Props

/-! ## One change after the other -/

/-- **What a change leaves** under its key; without a change, what was there. -/
def settled (old : Option Json) : Option Json → Option Json
  | none => old
  | some v => if v.isNull then none else some v

/-- One change decides what its own key holds, and leaves every other key alone. -/
theorem get?_change {m : Json.Fields} (hm : (Entries.keys m).Nodup) (e : String × Json) (x : String) :
    Entries.get? (change m e) x
      = if e.1 = x then settled (Entries.get? m x) (some e.2) else Entries.get? m x := by
  unfold change settled
  dsimp only
  cases e.2.isNull with
  | true => exact Entries.get?_swapErase hm e.1 x
  | false => exact Entries.get?_put m e.1 x e.2

/-- A change never makes a key come twice. -/
theorem nodup_keys_change {m : Json.Fields} (hm : (Entries.keys m).Nodup) (e : String × Json) :
    (Entries.keys (change m e)).Nodup := by
  unfold change
  split
  · exact Entries.nodup_keys_swapErase hm e.1
  · exact Entries.nodup_keys_put hm e.1 e.2

/-- **What is found after changes**, none of which is of the key of another one. -/
theorem get?_changes {changes m : Json.Fields} (hchanges : (Entries.keys changes).Nodup)
    (hm : (Entries.keys m).Nodup) (x : String) :
    Entries.get? (changes.foldl change m) x
      = settled (Entries.get? m x) (Entries.get? changes x) := by
  induction changes generalizing m with
  | nil => rfl
  | cons e r ih =>
    obtain ⟨he, hr⟩ : e.1 ∉ Entries.keys r ∧ (Entries.keys r).Nodup := List.nodup_cons.1 hchanges
    have hrest := ih hr (nodup_keys_change hm e)
    rw [get?_change hm] at hrest
    rw [List.foldl_cons, hrest, Entries.get?]
    -- a key that is changed first is not changed again
    split
    · next hx =>
      rw [← hx, Entries.get?_eq_none_iff.2 he]
      rfl
    · rfl

theorem nodup_keys_changes (changes : Json.Fields) {m : Json.Fields} (hm : (Entries.keys m).Nodup) :
    (Entries.keys (changes.foldl change m)).Nodup := by
  induction changes generalizing m with
  | nil => exact hm
  | cons e r ih => exact ih (nodup_keys_change hm e)

/-- **One change** of a tidy object. -/
theorem isTidy_change {m : Json.Fields} {e : String × Json} (hm : (Json.object m).isTidy = true)
    (he : e.2.isTidy = true) : (Json.object (change m e)).isTidy = true := by
  unfold change
  split
  · obtain ⟨hkeys, hvalues⟩ := Json.isTidy_object.1 hm
    exact Json.isTidy_object.2 ⟨Entries.nodup_keys_swapErase hkeys e.1,
      fun d hd => hvalues d (Entries.mem_swapErase hd)⟩
  · exact Json.isTidy_put hm he

/-- Tidy changes of a tidy object leave it tidy. -/
theorem isTidy_changes {changes : Json.Fields} (hchanges : ∀ e ∈ changes, e.2.isTidy = true)
    {m : Json.Fields} (hm : (Json.object m).isTidy = true) :
    (Json.object (changes.foldl change m)).isTidy = true := by
  induction changes generalizing m with
  | nil => exact hm
  | cons e r ih =>
    obtain ⟨he, hr⟩ := List.forall_mem_cons.1 hchanges
    exact ih hr (isTidy_change hm he)

/-- **Merging tidy values** into stable props that keep tidy fields. -/
theorem isTidy_of_merged? {p q : Props} {partials : Json.Fields} (hs : p.Stable)
    (hp : p.isTidy = true) (hpartials : ∀ e ∈ partials, e.2.isTidy = true)
    (h : p.merged? partials = .ok q) : q.isTidy = true := by
  have hread := merged?_eq_ok_iff.1 h
  have hmerged : (Json.object (partials.foldl change p.toFields)).isTidy = true :=
    isTidy_changes hpartials (isTidy_toFields hs hp)
  cases p with
  | known k s =>
    obtain ⟨t, ht, rfl⟩ := Option.map_eq_some_iff.1 hread
    exact Json.isTidy_of_sublist (Settings.others_of_parse? ht) hmerged
  | unknown t fs =>
    obtain rfl := Option.some.inj hread
    exact hmerged

theorem isTidy_palette (kind : Option Kind) : (palette kind).isTidy = true := by
  cases kind with
  | none => rfl
  | some k => cases k <;> rfl

/-! ## Reading an object as the props that there are -/

variable {p q r s : Props} {a b c l m : Json.Fields}

/-- Props that were read as others read objects as these do. -/
theorem remake?_eq (h : p.remake? m = some q) : q.remake? = p.remake? := by
  cases p with
  | known k t =>
    obtain ⟨u, -, rfl⟩ := Option.map_eq_some_iff.1 h
    rfl
  | unknown t fs =>
    obtain rfl := Option.some.inj h
    rfl

/-- **What is written under a key** depends on what was found under it. -/
theorem get?_of_remake? {x : String} (hq : p.remake? l = some q) (hr : p.remake? m = some r)
    (hx : Entries.get? l x = Entries.get? m x) :
    Entries.get? q.toFields x = Entries.get? r.toFields x := by
  cases p with
  | known k t =>
    obtain ⟨u, hu, rfl⟩ := Option.map_eq_some_iff.1 hq
    obtain ⟨v, hv, rfl⟩ := Option.map_eq_some_iff.1 hr
    exact Settings.get?_toFields_congr hx hu hv
  | unknown t fs =>
    obtain rfl := Option.some.inj hq
    obtain rfl := Option.some.inj hr
    exact hx

/-- **Whether a field is read alone**; without a kind, every field is. -/
def accepts (p : Props) (e : String × Json) : Bool :=
  match p.kind? with
  | some k => (Settings.parse? k [e]).isSome
  | none => true

/-- Props can be made anew from an object just when they accept every field of it. -/
theorem isSome_remake?_iff (hm : (Entries.keys m).Nodup) :
    (p.remake? m).isSome ↔ ∀ e ∈ m, p.accepts e = true := by
  cases p with
  | known k t =>
    show ((Settings.parse? k m).map (known k)).isSome ↔ ∀ e ∈ m, k.fits e = true
    rw [Option.isSome_map, Settings.isSome_parse?_iff_fits hm]
  | unknown t fs => exact iff_of_true rfl fun _ _ => rfl

/-! ## Props as they are obtained -/

/-- **Props as they are obtained**: of a type that names no kind, with any fields; parsed from an
object; from the palette; and merged. -/
inductive Obtained : Props → Prop
  | unrecognised (typeName : String) {fields : Json.Fields} (legible : (Json.object fields).Legible) :
      Obtained (.unknown typeName fields)
  | parsed {kind : Kind} {s : Settings kind} {fields : Json.Fields}
      (legible : (Json.object fields).Legible) (parse : Settings.parse? kind fields = some s) :
      Obtained (.known kind s)
  | palette (kind : Option Kind) : Obtained (palette kind)
  | merged {old p : Props} {partials : Json.Fields} (obtained : Obtained old)
      (legible : (Json.object partials).Legible) (merge : old.merged? partials = .ok p) : Obtained p

/-- **Sound props**: they are read from what is written of them. -/
structure Sound (p : Props) : Prop where
  reads : p.remake? p.toFields = some p
  tidy : (Json.object p.toFields).isTidy = true
  proper : (Json.object p.toFields).isProper = true

theorem Sound.nodup (h : p.Sound) : (Entries.keys p.toFields).Nodup := (Json.isTidy_object.1 h.tidy).1

/-- Sound props of a kind are parsed from what is written of them. -/
theorem Sound.parses {k : Kind} {t : Settings k} (h : (known k t).Sound) :
    Settings.parse? k t.toFields = some t := by
  obtain ⟨u, hparse, heq⟩ := Option.map_eq_some_iff.1 h.reads
  injection heq with _ heq
  rwa [heq] at hparse

theorem Sound.stable {k : Kind} {t : Settings k} (h : (known k t).Sound) : t.Stable :=
  Settings.stable_of_parse? (fun e he _ => Json.holdProper_iff.1 h.proper e he) h.parses

/-- Stable settings are sound as props if the other fields are tidy and proper. -/
theorem sound_known {k : Kind} {t : Settings k} (ht : t.Stable)
    (htidy : (Json.object t.others).isTidy = true)
    (hproper : ∀ e ∈ t.others, e.2.isProper = true) : (known k t).Sound := by
  refine ⟨?_, Settings.isTidy_toFields ht htidy, Json.holdProper_iff.2 fun e he => ?_⟩
  · show (Settings.parse? k t.toFields).map (known k) = _
    rw [Settings.parse?_toFields ht]
    rfl
  · rcases Settings.mem_others_or_isProper he with he | he
    · exact hproper e he
    · exact he

/-- **What is read** from a tidy and proper object is sound. -/
theorem sound_of_remake? (htidy : (Json.object m).isTidy = true)
    (hproper : ∀ e ∈ m, e.2.isProper = true) (h : p.remake? m = some q) : q.Sound := by
  cases p with
  | known k t =>
    obtain ⟨u, hu, rfl⟩ := Option.map_eq_some_iff.1 h
    have hothers : u.others.Sublist m := Settings.others_of_parse? hu
    exact sound_known (Settings.stable_of_parse? (fun e he _ => hproper e he) hu)
      (Json.isTidy_of_sublist hothers htidy) fun e he => hproper e (hothers.subset he)
  | unknown t fs =>
    obtain rfl := Option.some.inj h
    exact ⟨rfl, htidy, Json.holdProper_iff.2 hproper⟩

/-- **A merge** of sound props is sound. -/
theorem Sound.merged (hp : p.Sound) (ha : (Json.object a).Legible) (h : p.merged? a = .ok q) :
    q.Sound := by
  have htidy : ∀ e ∈ a, e.2.isTidy = true := (Json.isTidy_object.1 ha.tidy).2
  refine sound_of_remake? (isTidy_changes htidy hp.tidy) (fun e he => ?_) (merged?_eq_ok_iff.1 h)
  rcases mem_of_mem_changes a he with he | he
  · exact Json.holdProper_iff.1 hp.proper e he
  · exact Json.holdProper_iff.1 ha.isProper e he

theorem Obtained.sound (h : p.Obtained) : p.Sound := by
  -- by the way in which the props came about; only merging builds on props that were there
  induction h with
  | unrecognised t hlegible =>
    exact ⟨rfl, hlegible.tidy, hlegible.isProper⟩
  | parsed hlegible hparse =>
    have hread : (known _ (Settings.blank _)).remake? _ = some (known _ _) :=
      congrArg (Option.map (known _)) hparse
    exact sound_of_remake? hlegible.tidy (Json.holdProper_iff.1 hlegible.isProper) hread
  | palette kind =>
    cases kind with
    | none => exact ⟨rfl, rfl, rfl⟩
    | some k =>
      have hothers : (Settings.palette k).others = [] := by cases k <;> rfl
      refine sound_known (stable_palette (some k)) (isTidy_palette (some k)) ?_
      rw [hothers]
      exact nofun
  | merged _ hlegible h ih => exact ih.merged hlegible h

/-- What is recovered is obtained. -/
theorem obtained_recover (t : String) (hm : (Json.object m).Legible) : (recover t m).Obtained := by
  unfold recover
  split
  · next k _ =>
    obtain ⟨hkeys, hvalues⟩ := Json.legible_object.1 hm
    have hfits : (Json.object (m.filter k.fits)).Legible := by
      refine Json.legible_object.2 ⟨hkeys.sublist (List.filter_sublist.map _), fun e he => ?_⟩
      exact hvalues e (List.mem_filter.1 he).1
    exact .parsed hfits (Settings.recover_eq k m)
  · exact .unrecognised t hm

/-! ## Equal props -/

/-- **Props that are alike**: equal as an edit means it, and with the same value under every key. -/
structure Alike (p q : Props) : Prop where
  same : p.same q = true
  fields : ∀ x, Entries.get? p.toFields x = Entries.get? q.toFields x

/-- Props that were made anew from objects and hold the same under every key are alike, whatever the
order of their keys. -/
theorem alike_of_get? (hq : q.Sound) (hr : r.Sound) (hremake : p.remake? l = some q)
    (hremake' : p.remake? m = some r)
    (h : ∀ x, Entries.get? q.toFields x = Entries.get? r.toFields x) : q.Alike r := by
  refine ⟨?_, h⟩
  -- both sides come from the props that were merged into, so they are of one kind
  cases p with
  | known k t =>
    obtain ⟨u, -, rfl⟩ := Option.map_eq_some_iff.1 hremake
    obtain ⟨v, -, rfl⟩ := Option.map_eq_some_iff.1 hremake'
    show (if h : k = k then (h ▸ u).same v else false) = true
    rw [dif_pos rfl]
    exact Settings.same_of_get? hq.parses hr.parses hq.tidy
      (Json.holdProper_iff.1 hq.proper) hr.nodup h
  | unknown t fs =>
    obtain rfl := Option.some.inj hremake
    obtain rfl := Option.some.inj hremake'
    show (t == t && Json.same (.object l) (.object m)) = true
    rw [beq_self_eq_true, Bool.true_and]
    exact Json.same_object hq.tidy hq.proper hr.nodup h

/-! ## The laws of merging -/

/-- **When a merge is accepted**: every value that it writes is read alone. -/
theorem exists_merged?_iff (hp : p.Sound) (ha : (Entries.keys a).Nodup) :
    (∃ q, p.merged? a = .ok q) ↔ ∀ e ∈ a, e.2.isNull = false → p.accepts e = true := by
  have hkeys : (Entries.keys (a.foldl change p.toFields)).Nodup := nodup_keys_changes a hp.nodup
  have hreads : ∀ e ∈ p.toFields, p.accepts e = true :=
    (isSome_remake?_iff hp.nodup).1 (Option.isSome_of_eq_some hp.reads)
  have hexists : (∃ q, p.merged? a = .ok q) ↔ (p.remake? (a.foldl change p.toFields)).isSome := by
    rw [Option.isSome_iff_exists]
    exact exists_congr fun q => merged?_eq_ok_iff
  rw [hexists, isSome_remake?_iff hkeys]
  constructor
  · -- a change that is no null is a field of the merged object
    intro h e he hnull
    have hfound : Entries.get? (a.foldl change p.toFields) e.1 = some e.2 := by
      rw [get?_changes ha hp.nodup, Entries.get?_of_mem ha he, settled, hnull]
      rfl
    exact h e (Entries.mem_of_get? hfound)
  · intro h e he
    have hfound := Entries.get?_of_mem hkeys he
    rw [get?_changes ha hp.nodup] at hfound
    -- a field of the merged object is an old one, which is accepted, or one of the changes
    cases hx : Entries.get? a e.1 with
    | none =>
      rw [hx] at hfound
      exact hreads e (Entries.mem_of_get? hfound)
    | some v =>
      rw [hx, settled] at hfound
      split at hfound
      · cases hfound
      · next hnull =>
        obtain rfl := Option.some.inj hfound
        exact h e (Entries.mem_of_get? hx) (Bool.eq_false_iff.2 hnull)

/-- **A key that is not mentioned** keeps its value. -/
theorem get?_of_merged? (hp : p.Sound) (ha : (Entries.keys a).Nodup) (h : p.merged? a = .ok q)
    {x : String} (hx : x ∉ Entries.keys a) :
    Entries.get? q.toFields x = Entries.get? p.toFields x := by
  refine get?_of_remake? (merged?_eq_ok_iff.1 h) hp.reads ?_
  rw [get?_changes ha hp.nodup, Entries.get?_eq_none_iff.2 hx]
  rfl

/-- **One merge for two**: the fields of the second merge, and under all other keys those of the
first. -/
theorem get?_of_merged?_merged? (hp : p.Sound) (ha : (Json.object a).Legible)
    (hb : (Entries.keys b).Nodup) (hc : (Entries.keys c).Nodup)
    (hor : ∀ x, Entries.get? c x = (Entries.get? b x).or (Entries.get? a x))
    (hq : p.merged? a = .ok q) (hr : q.merged? b = .ok r) (hs : p.merged? c = .ok s) (x : String) :
    Entries.get? s.toFields x = Entries.get? r.toFields x := by
  have hsound : q.Sound := hp.merged ha hq
  have hkeys : (Entries.keys a).Nodup := (Json.isTidy_object.1 ha.tidy).1
  rw [merged?_eq_ok_iff] at hq hr hs
  have hreads : p.remake? q.toFields = some q := remake?_eq hq ▸ hsound.reads
  rw [remake?_eq hq] at hr
  cases hx : Entries.get? b x with
  | none =>
    -- the second merge brings nothing in under the key, and what is there is settled already
    have hstays : Entries.get? (b.foldl change q.toFields) x = Entries.get? q.toFields x := by
      rw [get?_changes hb hsound.nodup, hx]
      rfl
    rw [get?_of_remake? hr hreads hstays]
    refine get?_of_remake? hs hq ?_
    rw [get?_changes hc hp.nodup, get?_changes hkeys hp.nodup, hor, hx, Option.none_or]
  | some v =>
    refine get?_of_remake? hs hr ?_
    rw [get?_changes hc hp.nodup, get?_changes hb hsound.nodup, hor, hx]
    rfl

/-- Merging stays with what is read alone. -/
theorem accepts_of_merged? (h : p.merged? a = .ok q) : q.accepts = p.accepts := by
  funext e
  unfold accepts
  rw [kind?_of_merged? h]

/-- **A merge done again** leaves what is there. -/
theorem exists_merged?_again (hp : p.Sound) (ha : (Json.object a).Legible)
    (hq : p.merged? a = .ok q) : ∃ r, q.merged? a = .ok r ∧ r.Alike q := by
  have hkeys : (Entries.keys a).Nodup := (Json.isTidy_object.1 ha.tidy).1
  have hsound : q.Sound := hp.merged ha hq
  obtain ⟨r, hr⟩ : ∃ r, q.merged? a = .ok r := by
    rw [exists_merged?_iff hsound hkeys, accepts_of_merged? hq]
    exact (exists_merged?_iff hp hkeys).1 ⟨q, hq⟩
  have hread : p.remake? (a.foldl change p.toFields) = some q := merged?_eq_ok_iff.1 hq
  have hagain : p.remake? (a.foldl change q.toFields) = some r :=
    remake?_eq hread ▸ merged?_eq_ok_iff.1 hr
  refine ⟨r, hr, alike_of_get? (hsound.merged ha hr) hsound hagain hread fun x => ?_⟩
  have hself : ∀ y, Entries.get? a y = (Entries.get? a y).or (Entries.get? a y) := fun _ =>
    Option.or_self.symm
  exact (get?_of_merged?_merged? hp ha hkeys hkeys hself hq hr hq x).symm

/-- What one merge for two has comes from the first or from the second. -/
theorem mem_or_mem_of_get? (hc : (Entries.keys c).Nodup)
    (hor : ∀ x, Entries.get? c x = (Entries.get? b x).or (Entries.get? a x)) :
    ∀ e ∈ c, e ∈ b ∨ e ∈ a := by
  intro e he
  have hfound : (Entries.get? b e.1).or (Entries.get? a e.1) = some e.2 :=
    (hor e.1).symm.trans (Entries.get?_of_mem hc he)
  rcases Option.or_eq_some_iff.1 hfound with hb | ⟨-, ha⟩
  · exact Or.inl (Entries.mem_of_get? hb)
  · exact Or.inr (Entries.mem_of_get? ha)

/-- **Two merges are one.** -/
theorem exists_merged?_both (hp : p.Sound) (ha : (Json.object a).Legible)
    (hb : (Json.object b).Legible) (hc : (Entries.keys c).Nodup)
    (hor : ∀ x, Entries.get? c x = (Entries.get? b x).or (Entries.get? a x))
    (hq : p.merged? a = .ok q) (hr : q.merged? b = .ok r) :
    ∃ s, p.merged? c = .ok s ∧ s.Alike r := by
  obtain ⟨hkeysa, hvaluesa⟩ := Json.legible_object.1 ha
  obtain ⟨hkeysb, hvaluesb⟩ := Json.legible_object.1 hb
  have hsound : q.Sound := hp.merged ha hq
  have hmem := mem_or_mem_of_get? hc hor
  -- both merges were accepted, and props accept what they accepted before
  obtain ⟨s, hs⟩ : ∃ s, p.merged? c = .ok s := by
    refine (exists_merged?_iff hp hc).2 fun e he hnull => ?_
    rcases hmem e he with he | he
    · rw [← accepts_of_merged? hq]
      exact (exists_merged?_iff hsound hkeysb).1 ⟨r, hr⟩ e he hnull
    · exact (exists_merged?_iff hp hkeysa).1 ⟨q, hq⟩ e he hnull
  have hlegible : (Json.object c).Legible := by
    refine Json.legible_object.2 ⟨hc, fun e he => ?_⟩
    rcases hmem e he with he | he
    · exact hvaluesb e he
    · exact hvaluesa e he
  have hremake : p.remake? (b.foldl change q.toFields) = some r :=
    remake?_eq (merged?_eq_ok_iff.1 hq) ▸ merged?_eq_ok_iff.1 hr
  exact ⟨s, hs, alike_of_get? (hp.merged hlegible hs) (hsound.merged hb hr)
    (merged?_eq_ok_iff.1 hs) hremake (get?_of_merged?_merged? hp ha hkeysb hc hor hq hr hs)⟩

end Props
end PageBuilder
