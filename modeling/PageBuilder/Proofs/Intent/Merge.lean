/-
  Props that are set, and set again.

  Program:        `apply` of an intent that sets props.
  Specification:  `Props.merges_compose` — when a merge is accepted, what it leaves alone, that two
                  merges are one, and that setting the same props twice changes nothing.
  Crux:           an edit is refused as one that changes nothing when the merged props are the same as
                  those of the node, and a merge that is done again leaves what is there.
-/
import PageBuilder.Proofs.Intent.Outcome
import PageBuilder.Proofs.Props.Merge

namespace PageBuilder

namespace Intent

variable {registry : Registry} {supply : Node.Supply} {tree : Node} {id : String}
  {partials : Json.Fields}

/-- Setting props that the node has already is refused. -/
theorem apply_setProps_of_same {n : Node} {q : Props} (hfind : tree.find? id = some n)
    (hq : n.props.merged? partials = .ok q) (hsame : q.same n.props = true) :
    apply registry supply tree (.setProps id partials) = .error (.unchanged id) := by
  have hreason : (setProps id partials).refusal? registry supply tree = some (.unchanged id) := by
    simp [refusal?, refusals, notFound?_of_find? hfind, invalidProps?, sameProps?, reason, hfind, hq,
      hsame]
  cases outcome registry supply tree (.setProps id partials) with
  | refused e reason edit result =>
    rw [hreason] at reason
    rw [result, Option.some.inj reason]
  | accepted b reason edit result inserted effect =>
    rw [hreason] at reason
    cases reason

/-- Props that fit and differ are set at the first place of the id. -/
theorem apply_setProps_plug {p : Node.Place} {n : Node} {q : Props} (hid : n.id = id)
    (hbefore : id ∉ p.idsBefore) (hq : n.props.merged? partials = .ok q)
    (hdiffers : q.same n.props = false) :
    apply registry supply (p.plug n) (.setProps id partials)
      = .ok ⟨p.plug { n with props := q }, none, supply⟩ := by
  have hedit : (p.plug n).updateProps? id partials = some (p.plug { n with props := q }) := by
    rw [Node.updateProps?, Node.toOption_editAt fun f => Node.editAt_plug hid p hbefore,
      Node.mergeProps?_eq_some_iff.2 ⟨q, hq, hdiffers, rfl⟩]
    rfl
  rw [apply, lookup_of_find? (Node.find?_plug hid p hbefore)]
  simp only [bind, Except.bind]
  rw [hq, hedit]
  rfl

/-- Where props were set, the merged ones are found. -/
theorem find?_of_apply_setProps {r : Applied}
    (h : apply registry supply tree (.setProps id partials) = .ok r) :
    ∃ n q, tree.find? id = some n ∧ n.props.merged? partials = .ok q ∧
      r.tree.find? id = some { n with props := q } := by
  cases outcome registry supply tree (.setProps id partials) with
  | refused e reason edit result =>
    rw [result] at h
    cases h
  | accepted b reason edit result inserted effect =>
    rw [result] at h
    obtain rfl : b = r := Except.ok.inj h
    have hedit : tree.updateProps? id partials = some b.tree := edit
    -- an accepted intent has an edit, and an edit has a node
    rcases Node.editAt_cases id tree with ⟨-, habsent⟩ | ⟨p, n, -, hn, hbefore, hfind, hplug⟩
    · rw [Node.updateProps?, habsent] at hedit
      cases hedit
    · have hmap : tree.updateProps? id partials = (Node.mergeProps? partials n).map p.plug :=
        Node.toOption_editAt hplug
      obtain ⟨m, hm, htree⟩ := Option.map_eq_some_iff.1 (hmap.symm.trans hedit)
      obtain ⟨q, hq, -, rfl⟩ := Node.mergeProps?_eq_some_iff.1 hm
      refine ⟨n, q, hfind, hq, ?_⟩
      rw [← htree]
      exact Node.find?_plug (show { n with props := q }.id = id from hn) p hbefore

end Intent

namespace Props

/-- **Merges compose.**

For all props as they are obtained and all objects: a merge is accepted just when each field that it
writes is read alone.  It leaves every key that it does not mention; done again it leaves props that
are alike, so that setting the same props a second time is refused as a change of nothing; and a second
merge with whatever object leaves what one merge leaves, of an object that has the fields of the second
and, under all other keys, those of the first. -/
theorem merges_compose {p : Props} (hp : p.Obtained) {a : Json.Fields}
    (ha : (Json.object a).Legible) :
    ((∃ q, p.merged? a = .ok q) ↔ ∀ e ∈ a, e.2.isNull = false → p.accepts e = true) ∧
    ∀ q, p.merged? a = .ok q →
      (∀ x, x ∉ Entries.keys a → Entries.get? q.toFields x = Entries.get? p.toFields x) ∧
      (∃ r, q.merged? a = .ok r ∧ r.Alike q) ∧
      (∀ registry supply registry' supply' tree id n edited,
        Node.find? tree id = some n → n.props = p →
        Intent.apply registry supply tree (.setProps id a) = .ok edited →
        Intent.apply registry' supply' edited.tree (.setProps id a) = .error (.unchanged id)) ∧
      ∀ b r c, (Json.object b).Legible → q.merged? b = .ok r → (Entries.keys c).Nodup →
        (∀ x, Entries.get? c x = (Entries.get? b x).or (Entries.get? a x)) →
        ∃ s, p.merged? c = .ok s ∧ s.Alike r := by
  have hsound : p.Sound := hp.sound
  have hkeys : (Entries.keys a).Nodup := (Json.isTidy_object.1 ha.tidy).1
  refine ⟨exists_merged?_iff hsound hkeys, fun q hq => ?_⟩
  -- a merge that went through goes through again, and changes nothing
  have hagain : ∃ r, q.merged? a = .ok r ∧ r.Alike q := exists_merged?_again hsound ha hq
  refine ⟨fun x hx => get?_of_merged? hsound hkeys hq hx, hagain, ?_, ?_⟩
  · -- the edited node holds the merged props, so the second intent finds these
    intro registry supply registry' supply' tree id n edited hfind hprops hedit
    obtain ⟨n', q', hfind', hq', hfound⟩ := Intent.find?_of_apply_setProps hedit
    obtain rfl : n = n' := Option.some.inj (hfind.symm.trans hfind')
    rw [hprops, hq] at hq'
    obtain rfl : q = q' := Except.ok.inj hq'
    obtain ⟨r, hr, halike⟩ := hagain
    exact Intent.apply_setProps_of_same hfound hr halike.same
  · intro b r c hb hr hc hor
    exact exists_merged?_both hsound ha hb hc hor hq hr

/-- A list that is spoiled in two fields, as it is recovered. -/
def teamProps : Props := .recover "DataList" Settings.teamList

/-- A page with this list. -/
def teamPage : Node := ⟨"page", .blank (some .container), some [.make "list" teamProps], {}⟩

/-- The items are cleared, which leaves none, and the title, which then comes back. -/
theorem merges_compose_teamProps :
    let a : Json.Fields :=
      [("items", .null), ("note", .null), ("title", .null), ("rows", .number (.whole 3))]
    let b : Json.Fields := [("title", .string "All"), ("className", .string "p-4")]
    let q : Props := .recover "DataList" [("sortKey", .string "value"), ("data-x", .bool true),
      ("rows", .number (.whole 3))]
    teamProps.Obtained ∧ (Json.object a).Legible ∧ (Json.object b).Legible ∧
    teamProps.merged? a = .ok q ∧
    (∃ r s, q.merged? b = .ok r ∧ teamProps.merged? (Entries.putAll a b) = .ok s ∧ s.Alike r) ∧
    ∃ edited, Intent.apply [] [] teamPage (.setProps "list" a) = .ok edited ∧
      Intent.apply [] [] edited.tree (.setProps "list" a) = .error (.unchanged "list") := by
  intro a b q
  have hteam : teamProps.Obtained := obtained_recover "DataList" (by decide +kernel)
  have ha : (Json.object a).Legible := by decide +kernel
  have hb : (Json.object b).Legible := by decide +kernel
  have hq : teamProps.merged? a = .ok q := by decide +kernel
  obtain ⟨-, -, hrepeated, hboth⟩ := (merges_compose hteam ha).2 q hq
  refine ⟨hteam, ha, hb, hq, ?_, ?_⟩
  · obtain ⟨r, hr⟩ := (merges_compose (hteam.merged ha hq) hb).1.2 (by decide +kernel)
    have hc : (Entries.keys (Entries.putAll a b)).Nodup := by decide
    obtain ⟨s, hs, halike⟩ := hboth b r _ hb hr hc (Entries.get?_putAll a (by decide))
    exact ⟨r, s, hr, hs, halike⟩
  · have hedit : Intent.apply [] [] teamPage (.setProps "list" a)
        = .ok ⟨⟨"page", .blank (some .container), some [.make "list" q], {}⟩, none, []⟩ := by
      decide +kernel
    exact ⟨_, hedit, hrepeated [] [] [] [] teamPage "list" (.make "list" teamProps) _
      (by decide +kernel) rfl hedit⟩

end Props
end PageBuilder
