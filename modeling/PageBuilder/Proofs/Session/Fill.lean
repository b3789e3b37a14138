/-
  Rows for a data list.

  The rows that were generated for a list come to it as an intent that sets props: as an object, which
  is merged into the props of the first node of the id and read again.

  Programs:       `perform` of a fill; `fillRefusals` — the reasons not to fill, in the order of their
                  rank.
  Specification:  `fill_replaces_rows` — a fill is refused for the first reason that there is, and
                  then nothing changes; otherwise the first node of the id has the rows, nothing else
                  is different, and the others are told just if the rows are.
  Crux:           `merged?_rows` — no list of rows is ever refused by the merge, so of the errors of
                  an intent only "changes nothing" is left, and that one counts as done.
-/
import PageBuilder.Proofs.Intent.Merge
import PageBuilder.Proofs.Node.Locality
import PageBuilder.Proofs.Props.Rows
import PageBuilder.Proofs.Session.Broadcast

namespace PageBuilder.Session

variable {s : Session} {id : String} {generated : Option (List ListItem)}

/-! ## Refusals -/

/-- **The reasons not to fill** a list, in the order of their rank; one that does not hold is
`none`. -/
def fillRefusals (s : Session) (id : String) (generated : Option (List ListItem)) :
    List (Option SessionError) :=
  [if s.tree.contains id then none else some (.edit (.notFound id)),
   (s.tree.find? id).bind fun n =>
     if n.kind? = some .dataList then none else some (.notADataList id),
   if generated.isSome then none else some .generation]

/-- **The first reason** not to fill a list. -/
def fillRefusal? (s : Session) (id : String) (generated : Option (List ListItem)) :
    Option SessionError :=
  (s.fillRefusals id generated).findSome? fun reason => reason

/-! ## Lists that are filled -/

/-- **Where the list is**: a node of the id at a place before which the id does not occur, with the
props of a data list. -/
structure ListAt (tree : Node) (id : String) (p : Node.Place) (n : Node)
    (t : Settings .dataList) : Prop where
  eq_plug : tree = p.plug n
  named : n.id = id
  first : id ∉ p.idsBefore
  list : n.props = .known .dataList t

/-- **The node with other rows.** -/
def refilled (n : Node) (t : Settings .dataList) (rows : List ListItem) : Node :=
  { n with props := .known .dataList (t.withRows rows) }

section ListAt

variable {p : Node.Place} {n : Node} {t : Settings .dataList} {rows : List ListItem}

theorem ListAt.find? (h : ListAt s.tree id p n t) : s.tree.find? id = some n :=
  h.eq_plug ▸ Node.find?_plug h.named p h.first

theorem ListAt.firstSpot? (h : ListAt s.tree id p n t) :
    s.tree.firstSpot? id = some ⟨p.position, n⟩ := h.eq_plug ▸ Node.firstSpot?_plug h.named p h.first

theorem refilled_self (h : n.props = .known .dataList t) : refilled n t t.rows = n := by
  rw [refilled, Settings.withRows_self, ← h]
  cases n
  rfl

/-- **The fill of a list** is the tree with its rows, or nothing if these are the rows it has. -/
theorem fill_of_listAt (h : ListAt s.tree id p n t) (hsound : n.props.Sound)
    (rows : List ListItem) :
    s.fill id (some rows)
      = .ok (if rows = t.rows then none else some (p.plug (refilled n t rows))) := by
  have hkind : n.kind? = some .dataList := congrArg Props.kind? h.list
  have hknown : (Props.known .dataList t).Sound := h.list ▸ hsound
  have hmerged : n.props.merged? (rowsPartial rows) = .ok (.known .dataList (t.withRows rows)) := by
    rw [h.list]
    exact Props.merged?_rows hknown rows
  have hsame : (Props.known .dataList (t.withRows rows)).same n.props = true ↔ rows = t.rows := by
    rw [h.list]
    exact Props.same_withRows hknown rows
  rw [fill, h.find?]
  simp only [hkind, bne_self_eq_false, Bool.false_eq_true, if_false]
  -- the same rows are refused by the edit, which a fill does not report
  by_cases hrows : rows = t.rows
  · rw [if_pos hrows, Intent.apply_setProps_of_same h.find? hmerged (hsame.2 hrows)]
  · have hdiffers := Bool.eq_false_iff.2 (mt hsame.1 hrows)
    rw [if_neg hrows, h.eq_plug, Intent.apply_setProps_plug h.named h.first hmerged hdiffers]
    rfl

/-- **What becomes of a fill**: it is refused for the first reason that there is, or there is none, and
the rows are for the list at the first place of the id. -/
theorem fill_cases (s : Session) (id : String) (generated : Option (List ListItem)) :
    (∃ e, s.fillRefusal? id generated = some e ∧ s.fill id generated = .error e) ∨
    ∃ rows p n t, generated = some rows ∧ s.fillRefusal? id generated = none ∧
      ListAt s.tree id p n t := by
  rcases Node.editAt_cases id s.tree with ⟨hfind, -⟩ | ⟨p, n, htree, hid, hbefore, hfind, -⟩
  · refine Or.inl ⟨.edit (.notFound id), ?_, ?_⟩
    · simp [fillRefusal?, fillRefusals, Node.contains, hfind]
    · simp [fill, hfind]
  · -- in the order of their rank: no node, no list, no rows
    by_cases hkind : n.kind? = some .dataList
    · cases generated with
      | none =>
        refine Or.inl ⟨.generation, ?_, ?_⟩
        · simp [fillRefusal?, fillRefusals, Node.contains, hfind, hkind]
        · simp [fill, hfind, hkind]
      | some rows =>
        obtain ⟨t, hlist⟩ := Props.exists_settings hkind
        refine Or.inr ⟨rows, p, n, t, rfl, ?_, htree, hid, hbefore, hlist⟩
        simp [fillRefusal?, fillRefusals, Node.contains, hfind, hkind]
    · refine Or.inl ⟨.notADataList id, ?_, ?_⟩
      · simp [fillRefusal?, fillRefusals, Node.contains, hfind, hkind]
      · simp [fill, hfind, hkind]

/-- **Other rows and nothing else**: what a fill does that is not refused, with the first node of the
id, which is a data list, and with all the rest. -/
structure Filled (s : Session) (id : String) (rows : List ListItem) (d : Done) (p : List Nat)
    (n : Node) (t : Settings .dataList) : Prop where
  found : s.tree.firstSpot? id = some ⟨p, n⟩
  list : n.props = .known .dataList t
  counted : d.reply = .ok (.filled rows.length)
  /-- The list has the rows, and its id, other props, behavior and children. -/
  after : d.session.tree.firstSpot? id = some ⟨p, refilled n t rows⟩
  elsewhere : Node.ChangedOnlyAt p s.tree d.session.tree
  mode : d.session.mode = s.mode
  templates : d.session.templates = s.templates
  selection : s.Anchored → d.session.selection = s.selection
  told : d.announced = true ↔ rows ≠ t.rows
  quiet : rows = t.rows → d.session = s

/-- The rows are put where the list is. -/
theorem filled_of_listAt (h : ListAt s.tree id p n t) (hsound : n.props.Sound)
    (rows : List ListItem) :
    Filled s id rows (s.perform (.fill id (some rows))) p.position n t := by
  have hnamed : (refilled n t rows).id = id := h.named
  have hdone : s.perform (.fill id (some rows)) = if rows = t.rows
      then ⟨s, false, .ok (.filled rows.length)⟩
      else ⟨s.withTree (p.plug (refilled n t rows)), true, .ok (.filled rows.length)⟩ := by
    rw [perform, fill_of_listAt h hsound]
    by_cases hrows : rows = t.rows
    · rw [if_pos hrows, if_pos hrows]
      rfl
    · rw [if_neg hrows, if_neg hrows]
      rfl
  -- with the rows that the list has, this is the tree that there was
  have hafter : (s.perform (.fill id (some rows))).session.tree = p.plug (refilled n t rows) := by
    rw [hdone]
    split
    · next hrows => rw [hrows, refilled_self h.list, h.eq_plug]
    · rfl
  have hids : (p.plug (refilled n t rows)).ids = s.tree.ids := by
    rw [h.eq_plug, Node.ids_plug_congr p (hnamed.trans h.named.symm) rfl]
  have hchanged : Node.ChangedOnlyAt p.position s.tree (p.plug (refilled n t rows)) := by
    rw [h.eq_plug, ← Node.changedAt_position (fun _ => refilled n t rows) p n, ← h.eq_plug]
    exact Node.changedOnlyAt_changedAt _ (Node.at?_of_firstSpot? h.firstSpot?)
  refine ⟨h.firstSpot?, h.list, ?counted, ?after, hafter ▸ hchanged, ?mode, ?templates,
    fun hs => ?selection, ?told, fun hrows => ?quiet⟩
  case after => rw [hafter, Node.firstSpot?_plug hnamed p h.first]
  case counted | mode | templates =>
    rw [hdone]
    split <;> rfl
  case selection =>
    rw [hdone]
    split
    · rfl
    · exact if_pos (Node.contains_iff.2 (hids ▸ hs))
  case told =>
    rw [hdone]
    split
    · next hrows => exact iff_of_false Bool.false_ne_true (not_not.2 hrows)
    · next hrows => exact iff_of_true rfl hrows
  case quiet => rw [hdone, if_pos hrows]

end ListAt

/-- A fill that is not told of changes nothing. -/
theorem perform_fill_of_quiet (hquiet : (s.perform (.fill id generated)).announced = false) :
    (s.perform (.fill id generated)).session = s := by
  rcases perform_fill_cases s id generated with ⟨e, hd⟩ | ⟨reply, hd⟩ | ⟨t, reply, hd⟩
  · exact congrArg Done.session hd
  · exact congrArg Done.session hd
  · rw [hd] at hquiet
    cases hquiet

/-- **Rows for a data list.**

A fill fails just if there is a reason to: no node has the id, the first one that has it is no data
list, or no rows were generated, in this order; then nothing in the room changes.  Otherwise it tells
how many rows there are, and the first node of the id has them, in their order; its other props, its
behavior and its id stay, every other node stays, and a session that is attached sends its tree just if
the rows are not the ones that the list had. -/
theorem fill_replaces_rows (hsound : ∀ n, s.tree.find? id = some n → n.props.Sound)
    (generated : Option (List ListItem)) :
    let d := s.perform (.fill id generated)
    (∀ e, d.reply = .error e ↔ s.fillRefusal? id generated = some e) ∧
    (∀ e, d.reply = .error e → d.session = s ∧ d.announced = false) ∧
    (s.fillRefusal? id generated = none →
      ∃ rows p n t, generated = some rows ∧ Filled s id rows d p n t) ∧
    ∀ (r : Room) name m, r.member? name = some m → m.session = s →
      (d.announced = false → (r.perform name (.fill id generated)).1 = r) ∧
      ∀ a, m.attachment = some a → d.announced = true →
        (r.perform name (.fill id generated)).1
          = (r.update name fun _ => ⟨d.session, some a⟩).send a.peer d.session.tree := by
  intro d
  refine ⟨fun e => ?_, fun e => perform_error, fun hnone => ?_, fun r name m hm hs => ⟨?_, ?_⟩⟩
  · -- refused for a reason, or not refused, with a list to fill
    rcases fill_cases s id generated with ⟨e', he', hfill⟩ | ⟨rows, p, n, t, rfl, hnone, hlist⟩
    · have hreply : d.reply = .error e' := by
        show (s.perform (.fill id generated)).reply = _
        rw [perform, hfill]
      rw [hreply, he', Except.error.injEq, Option.some.injEq]
    · have hreply : d.reply = .ok (.filled rows.length) :=
        (filled_of_listAt hlist (hsound n hlist.find?) rows).counted
      simp only [hreply, hnone, reduceCtorEq]
  · rcases fill_cases s id generated with ⟨e, he, -⟩ | ⟨rows, p, n, t, rfl, -, hlist⟩
    · rw [hnone] at he
      cases he
    · exact ⟨rows, p.position, n, t, rfl, filled_of_listAt hlist (hsound n hlist.find?) rows⟩
  · intro hquiet
    subst hs
    exact Room.perform_eq_self hm rfl (perform_fill_of_quiet hquiet) hquiet
  · intro a ha htold
    subst hs
    exact Room.perform_of_announced hm ha htold

/-- A data list with one row, a filter and a field that is not modelled. -/
def rosterProps : Props :=
  .recover "DataList" [("title", .string "Team"), ("filterQuery", .string "a"),
    ("items", .array [.object [("id", .string "1"), ("title", .string "Ada")]]),
    ("data-x", .bool true)]

/-- A page with this list, and a palette list of the same id behind it. -/
def rosterPage : Node :=
  ⟨"root", .blank (some .container),
    some [.make "team" rosterProps, .make "team" (.palette (some .dataList))], {}⟩

/-- The first list has the two rows, its own row among them, and the second one stays. -/
theorem fill_replaces_rows_rosterPage :
    let s := start rosterPage []
    let rows : List ListItem := [⟨"1", "Ada", none, none, none⟩, ⟨"2", "Bo", none, some "7", none⟩]
    let d := s.perform (.fill "team" (some rows))
    (∀ n, s.tree.find? "team" = some n → n.props.Sound) ∧
    d.reply = .ok (.filled 2) ∧ d.announced = true ∧ d.session.selection = "root" ∧
    (d.session.tree.find? "team").map (·.props.toFields)
      = some [("title", .string "Team"), Settings.rowsField rows, ("filterQuery", .string "a"),
        ("data-x", .bool true)] ∧
    d.session.tree.at? [1] = some (.make "team" (.palette (some .dataList))) := by
  intro s rows d
  have hfound : s.tree.firstSpot? "team" = some ⟨[0], .make "team" rosterProps⟩ := rfl
  have hsound : ∀ n, s.tree.find? "team" = some n → n.props.Sound := by
    intro n hn
    rw [Node.find?_eq, hfound] at hn
    obtain rfl := Option.some.inj hn
    exact (Props.obtained_recover "DataList" (by decide +kernel)).sound
  obtain ⟨-, -, hfilled, -⟩ := fill_replaces_rows hsound (some rows)
  obtain ⟨_, p, n, t, hrows, h⟩ := hfilled (by decide +kernel)
  obtain rfl := Option.some.inj hrows
  obtain ⟨rfl, rfl⟩ := Node.Spot.mk.inj (Option.some.inj (hfound.symm.trans h.found))
  have hlist : rosterProps = .known .dataList t := h.list
  obtain rfl : t = ⟨(some "Team", none, [⟨"1", "Ada", none, none, none⟩], some "a", none, none, ()),
      none, [("data-x", .bool true)]⟩ := by
    injection hlist with _ hlist
    rw [← hlist]
    decide +kernel
  refine ⟨hsound, h.counted, h.told.2 (by decide), h.selection (Node.id_mem_ids _), ?_, ?_⟩
  · rw [Node.find?_eq, h.after]
    rfl
  · rw [h.elsewhere.aside [1] (by decide) (by decide)]
    rfl

end PageBuilder.Session
