/-
  Tidy trees: no object that is kept in a tree has a key twice.

  A node keeps JSON values as they came: the fields of its props that its kind does not model, and the
  values that its actions set.

  Programs:       `Tidy` — every node keeps tidy values; `Legible` — a stable tree that is tidy too.
  Specification:  `isTidy_toJson` — a legible tree is written as a tidy value, hence `ofText?_pretty` and
                  its kin: apart from its numbers and its depth, its text reads as the tree;
                  `legible_of_ofSource?` — what is read from a text is legible.
  Crux:           what a node keeps has none of the keys that its kind models, so the two lots of
                  fields, written one behind the other, have no key in common.
-/
import PageBuilder.Proofs.Json.Legible
import PageBuilder.Proofs.Node.Text

namespace PageBuilder

/-! ## Actions and behavior -/

namespace Json

/-- A text is tidy. -/
theorem isTidy_of_mem_setField {k : String} {s : Option String} {e : String × Json}
    (he : e ∈ setField k s) : e.2.isTidy = true := by
  cases s with
  | none => cases he
  | some s =>
    rw [List.mem_singleton.1 he]
    rfl

/-- The values of a record are tidy. -/
theorem isTidy_of_record? {names : List String} {v : Json} {fs : Fields} (hv : v.isTidy = true)
    (h : record? names v = some fs) : ∀ e ∈ fs, e.2.isTidy = true := by
  intro e he
  cases v with
  | object gs =>
    rw [← Option.some.inj h] at he
    exact (isTidy_object.1 hv).2 e he
  | array xs =>
    rw [record?] at h
    split at h
    · rw [← Option.some.inj h] at he
      exact isTidy_array.1 hv _ (List.of_mem_zip he).2
    · cases h
  | null | bool _ | number _ | string _ => cases h

end Json

namespace Action

/-- Whether an action sets a tidy value, if it sets one. -/
def isTidy : Action → Bool
  | .set _ (some v) => v.isTidy
  | _ => true

/-- An action is written as a tidy value if it sets one: its keys are written once. -/
theorem isTidy_toJson {a : Action} (h : a.isTidy = true) : a.toJson.isTidy = true := by
  cases a with
  | toggle target => cases target <;> rfl
  | set target value =>
    -- the value is the only part that may be untidy
    cases value with
    | none => cases target <;> rfl
    | some v =>
      have hv : v.isTidy = true := h
      cases target with
      | none =>
        refine Json.isTidy_object.2 ⟨(by decide : ["type", "value"].Nodup), ?_⟩
        exact List.forall_mem_cons.2 ⟨rfl, List.forall_mem_singleton.2 hv⟩
      | some t =>
        refine Json.isTidy_object.2 ⟨(by decide : ["type", "target", "value"].Nodup), ?_⟩
        exact List.forall_mem_cons.2
          ⟨rfl, List.forall_mem_cons.2 ⟨rfl, List.forall_mem_singleton.2 hv⟩⟩
  | alert message => cases message <;> rfl
  | apiRequest url method target =>
    cases method with
    | none => cases url <;> cases target <;> rfl
    | some m => cases m <;> cases url <;> cases target <;> rfl

/-- The fields of a tagged value are tidy, in either form. -/
theorem isTidy_of_tagged? {v : Json} {t : String} {fs : Json.Fields} (hv : v.isTidy = true)
    (h : tagged? v = some (t, fs)) : ∀ e ∈ fs, e.2.isTidy = true := by
  unfold tagged? at h
  split at h
  · obtain ⟨t', -, h⟩ := Option.map_eq_some_iff.1 h
    obtain ⟨-, rfl⟩ := Prod.mk.inj h
    exact (Json.isTidy_object.1 hv).2
  · next t' xs =>
    simp only [Option.bind_eq_bind, Option.bind_eq_some_iff] at h
    obtain ⟨names, -, gs, hgs, h⟩ := h
    obtain ⟨-, rfl⟩ := Prod.mk.inj (Option.some.inj h)
    have hxs : (Json.array xs).isTidy = true :=
      Json.isTidy_array.2 (List.forall_mem_cons.1 (Json.isTidy_array.1 hv)).2
    exact Json.isTidy_of_record? hxs hgs
  · cases h

/-- **What reads as an action** out of a tidy value sets a tidy value. -/
theorem isTidy_of_ofJson? {v : Json} {a : Action} (hv : v.isTidy = true)
    (h : ofJson? v = some a) : a.isTidy = true := by
  simp only [ofJson?, Option.bind_eq_bind, Option.bind_eq_some_iff] at h
  obtain ⟨⟨t, fs⟩, htagged, h⟩ := h
  have hfs := isTidy_of_tagged? hv htagged
  dsimp only at h
  split at h
  · obtain ⟨target, -, rfl⟩ := Option.map_eq_some_iff.1 h
    rfl
  · obtain ⟨target, -, rfl⟩ := Option.map_eq_some_iff.1 h
    cases hvalue : anyValue fs "value" with
    | none => rfl
    | some w => exact hfs _ (Entries.mem_of_get? (Option.filter_eq_some_iff.1 hvalue).1)
  · obtain ⟨message, -, rfl⟩ := Option.map_eq_some_iff.1 h
    rfl
  · simp only [Option.bind_eq_some_iff] at h
    obtain ⟨url, -, method, -, target, -, h⟩ := h
    rw [← Option.some.inj h]
    rfl
  · cases h

end Action

/-- **Tidy behavior**: its actions set tidy values. -/
def Behavior.Tidy (b : Behavior) : Prop := ∀ slot a, b.action slot = some a → a.isTidy = true

theorem Behavior.tidy_empty : Behavior.Tidy {} := by
  intro slot a h
  cases slot <;> cases h

/-! ## Props -/

namespace Format

/-- A list of tidy values is tidy. -/
theorem isTidy_map {α : Type} (write : α → Json) (h : ∀ a, (write a).isTidy = true) (xs : List α) :
    (Json.array (xs.map write)).isTidy = true := by
  refine Json.isTidy_array.2 fun v hv => ?_
  obtain ⟨a, -, rfl⟩ := List.mem_map.1 hv
  exact h a

theorem isTidy_writeNames (xs : List String) : (writeNames xs).isTidy = true :=
  isTidy_map Json.string (fun _ => rfl) xs

theorem isTidy_toJson (i : ListItem) : i.toJson.isTidy = true := by
  obtain ⟨id, title, subtitle, value, badge⟩ := i
  cases subtitle <;> cases value <;> cases badge <;> rfl

/-- **What a cell writes** is tidy. -/
theorem isTidy_of_write {f : Format} {c : f.Cell} {v : Json} (h : f.write c = some v) :
    v.isTidy = true := by
  cases f with
  | items =>
    rw [← Option.some.inj h]
    exact isTidy_map ListItem.toJson isTidy_toJson c
  | text | buttonVariant | badgeVariant | tone | sortKey | sortOrder | count =>
    obtain ⟨a, -, rfl⟩ := Option.map_eq_some_iff.1 h
    rfl
  | number =>
    obtain ⟨x, -, rfl⟩ := Option.map_eq_some_iff.1 h
    cases x <;> rfl
  | names =>
    obtain ⟨xs, -, rfl⟩ := Option.map_eq_some_iff.1 h
    exact isTidy_writeNames xs
  | rows =>
    obtain ⟨rs, -, rfl⟩ := Option.map_eq_some_iff.1 h
    exact isTidy_map writeNames isTidy_writeNames rs

end Format

namespace Record

/-- A field is written under its key, if at all. -/
theorem keys_writeField (f : Field) (c : f.format.Cell) :
    (Entries.keys (writeField f c)).Sublist [f.key] := by
  unfold writeField
  split
  · exact List.nil_sublist _
  · exact List.Sublist.refl _

/-- A record is written with some of its keys, each once. -/
theorem keys_write : ∀ (fs : List Field) (r : Record fs),
    (Entries.keys (write fs r)).Sublist (keys fs)
  | [], _ => List.Sublist.refl _
  | f :: fs, (c, r) => by
    rw [write, Entries.keys_append]
    exact (keys_writeField f c).append (keys_write fs r)

/-- What is written for a field is tidy. -/
theorem isTidy_of_mem_writeField {f : Field} {c : f.format.Cell} {e : String × Json}
    (h : e ∈ writeField f c) : e.2.isTidy = true := by
  unfold writeField at h
  split at h
  · cases h
  · next v hv =>
    rw [List.mem_singleton.1 h]
    exact Format.isTidy_of_write hv

/-- What is written for a record is tidy. -/
theorem isTidy_of_mem_write : ∀ (fs : List Field) (r : Record fs) {e : String × Json},
    e ∈ write fs r → e.2.isTidy = true
  | [], _, _, h => by cases h
  | f :: fs, (c, r), e, h => by
    rcases List.mem_append.1 h with h | h
    · exact isTidy_of_mem_writeField h
    · exact isTidy_of_mem_write fs r h

end Record

namespace Settings

variable {k : Kind}

/-- **Stable settings that keep tidy fields** are written as tidy fields. -/
theorem isTidy_toFields {s : Settings k} (hs : s.Stable)
    (hothers : (Json.object s.others).isTidy = true) : (Json.object s.toFields).isTidy = true := by
  obtain ⟨hkeys, hvalues⟩ := Json.isTidy_object.1 hothers
  have hmodelled : (Entries.keys (Record.write k.fields s.cells
      ++ Record.writeField Field.className s.className)).Sublist k.keys := by
    rw [Entries.keys_append]
    exact (Record.keys_write k.fields s.cells).append
      (Record.keys_writeField Field.className s.className)
  refine Json.isTidy_object.2 ⟨?_, fun e he => ?_⟩
  · rw [toFields, Entries.keys_append, List.nodup_append]
    refine ⟨k.nodup_keys.sublist hmodelled, hkeys, fun a ha b hb hab => ?_⟩
    obtain ⟨e, he, rfl⟩ := List.mem_map.1 hb
    exact hs.others e he (hmodelled.subset (hab ▸ ha))
  · rcases List.mem_append.1 he with he | he
    · rcases List.mem_append.1 he with he | he
      · exact Record.isTidy_of_mem_write k.fields s.cells he
      · exact Record.isTidy_of_mem_writeField he
    · exact hvalues e he

theorem others_of_parse? {m : Json.Fields} {s : Settings k} (h : parse? k m = some s) :
    s.others.Sublist m := by
  rw [(parse?_eq_some_iff.1 h).2.2]
  exact List.filter_sublist

/-- Recovered settings keep some of the fields. -/
theorem others_recover_sublist (k : Kind) (m : Json.Fields) : (recover k m).others.Sublist m := by
  unfold recover
  split
  · next h => exact others_of_parse? h
  · split
    · next h => exact (others_of_parse? h).trans List.filter_sublist
    · exact List.nil_sublist m

end Settings

namespace Props

/-- Whether the fields that are kept as they came are tidy. -/
def isTidy : Props → Bool
  | .known _ s => (Json.object s.others).isTidy
  | .unknown _ fs => (Json.object fs).isTidy

/-- Tidy props are written as a tidy object. -/
theorem isTidy_toFields {p : Props} (hs : p.Stable) (hp : p.isTidy = true) :
    (Json.object p.toFields).isTidy = true := by
  cases p with
  | known k s => exact Settings.isTidy_toFields hs hp
  | unknown t fs => exact hp

/-- **Props of a tidy object** are tidy. -/
theorem isTidy_recover {t : String} {m : Json.Fields} (hm : (Json.object m).isTidy = true) :
    (recover t m).isTidy = true := by
  unfold recover
  split
  · next k _ => exact Json.isTidy_of_sublist (Settings.others_recover_sublist k m) hm
  · exact hm

end Props

/-! ## Trees -/

namespace Node

/-- **A node that keeps tidy values**, whatever is under it. -/
structure Shell.Tidy (s : Shell) : Prop where
  props : s.props.isTidy = true
  behavior : s.behavior.Tidy

/-- Every node of a tree keeps tidy values. -/
def Tidy (n : Node) : Prop := ∀ s ∈ n.shells, s.Tidy

theorem tidy_iff {n : Node} : n.Tidy ↔ n.shell.Tidy ∧ ∀ c ∈ n.childList, c.Tidy :=
  forall_shells_iff

/-- **A legible tree**: it comes back from the wire, and keeps tidy values. -/
structure Legible (n : Node) : Prop where
  stable : n.Stable
  tidy : n.Tidy

/-- A tree is legible when its root is stable and tidy, and what is under it is legible. -/
theorem legible_iff {n : Node} :
    n.Legible ↔ n.shell.Stable ∧ n.shell.Tidy ∧ ∀ c ∈ n.childList, c.Legible := by
  constructor
  · intro h
    obtain ⟨hstable, hbelow⟩ := stable_iff.1 h.stable
    obtain ⟨htidy, hbelow'⟩ := tidy_iff.1 h.tidy
    exact ⟨hstable, htidy, fun c hc => ⟨hbelow c hc, hbelow' c hc⟩⟩
  · rintro ⟨hstable, htidy, hbelow⟩
    exact ⟨stable_iff.2 ⟨hstable, fun c hc => (hbelow c hc).stable⟩,
      tidy_iff.2 ⟨htidy, fun c hc => (hbelow c hc).tidy⟩⟩

/-! ## What is written -/

/-- A written action is tidy if the action is. -/
theorem isTidy_of_mem_actionField {k : String} {o : Option Action} {e : String × Json}
    (ho : ∀ a, o = some a → a.isTidy = true) (he : e ∈ actionField k o) : e.2.isTidy = true := by
  cases o with
  | none => cases he
  | some a =>
    rw [List.mem_singleton.1 he]
    exact Action.isTidy_toJson (ho a rfl)

/-- What is written for tidy behavior is tidy. -/
theorem isTidy_of_mem_behaviorFields {b : Behavior} (hb : b.Tidy) {e : String × Json}
    (he : e ∈ behaviorFields b) : e.2.isTidy = true := by
  simp only [behaviorFields, List.mem_append] at he
  -- the texts, the animation, and then one field for each of the three actions
  rcases he with (((((he | he) | he) | he) | he) | he) | he
  · exact Json.isTidy_of_mem_setField he
  · cases ha : b.animation with
    | none =>
      rw [ha] at he
      cases he
    | some a =>
      rw [ha] at he
      rw [List.mem_singleton.1 he]
      rfl
  · exact Json.isTidy_of_mem_setField he
  · exact Json.isTidy_of_mem_setField he
  · exact isTidy_of_mem_actionField (hb .click) he
  · exact isTidy_of_mem_actionField (hb .hover) he
  · exact isTidy_of_mem_actionField (hb .blur) he

/-- The list of the written children is tidy if each of them is. -/
theorem isTidy_toJsonAll {cs : List Node} (h : ∀ c ∈ cs, c.toJson.isTidy = true) :
    (Json.array (toJsonAll cs)).isTidy = true := by
  refine Json.isTidy_array.2 ?_
  induction cs with
  | nil =>
    intro v hv
    cases hv
  | cons c cs ih =>
    obtain ⟨hc, hcs⟩ := List.forall_mem_cons.1 h
    rw [toJsonAll]
    exact List.forall_mem_cons.2 ⟨hc, ih hcs⟩

/-- **A legible tree is written** as a tidy value. -/
theorem isTidy_toJson : ∀ n : Node, n.Legible → n.toJson.isTidy = true := by
  refine induct fun n ih h => ?_
  obtain ⟨hstable, htidy, hbelow⟩ := legible_iff.1 h
  have hkeys : (Entries.keys n.written).Sublist fieldNames := keys_wireFields ..
  rw [toJson_eq]
  refine Json.isTidy_object.2 ⟨nodup_fieldNames.sublist hkeys, fun e he => ?_⟩
  -- the head, the children, and the behavior
  rcases List.mem_append.1 he with he | he
  · simp only [headFields, List.mem_cons, List.not_mem_nil, or_false] at he
    rcases he with rfl | rfl | rfl
    · rfl
    · rfl
    · exact Props.isTidy_toFields hstable.props htidy.props
  · rcases List.mem_append.1 he with he | he
    · cases hcs : n.children with
      | none =>
        rw [hcs] at he
        cases he
      | some cs =>
        rw [hcs] at he
        rw [List.mem_singleton.1 he]
        refine isTidy_toJsonAll fun c hc => ?_
        have hmem : c ∈ n.childList := by
          rw [childList, hcs]
          exact hc
        exact ih c hmem (hbelow c hmem)
    · exact isTidy_of_mem_behaviorFields htidy.behavior he

/-- **A legible tree** whose numbers survive is faithful to its text. -/
theorem Legible.faithful {n : Node} (h : n.Legible) (hn : ∀ k ∈ n.toJson.numbers, k.Survives) :
    n.toJson.Faithful := ⟨isTidy_toJson n h, hn⟩

/-- **The text of a legible tree** whose numbers survive reads as that tree, or nests too deep. -/
theorem Legible.ofText?_pretty {n : Node} (h : n.Legible)
    (hn : ∀ k ∈ n.toJson.numbers, k.Survives) :
    ofText? n.pretty = if n.toJson.depth ≤ Json.maxDepth then some n else none := by
  have hstable : ofJson? n.toJson = some n := wireStable_iff.2 h.stable
  rw [Node.ofText?_pretty (h.faithful hn), hstable]

/-! ## What is read -/

/-- Props that are read are among the tidy fields. -/
theorem isTidy_of_propsField? {fs m : Json.Fields} (hfs : ∀ e ∈ fs, e.2.isTidy = true)
    (h : propsField? fs = some m) : (Json.object m).isTidy = true := by
  unfold propsField? at h
  split at h
  · rw [← Option.some.inj h]
    rfl
  · next v hv =>
    cases v with
    | object gs =>
      rw [← Option.some.inj h]
      exact hfs _ (Entries.mem_of_get? hv)
    | null | bool _ | number _ | string _ | array _ => cases h

/-- Behavior that is read from tidy fields is tidy. -/
theorem tidy_of_behavior? {fs : Json.Fields} {b : Behavior} (hfs : ∀ e ∈ fs, e.2.isTidy = true)
    (h : behavior? fs = some b) : b.Tidy := by
  simp only [behavior?, Option.bind_eq_bind, Option.bind_eq_some_iff] at h
  obtain ⟨tooltip, -, bind, -, visibleIf, -, h⟩ := h
  rw [← Option.some.inj h]
  intro slot a ha
  cases slot with
  | click | hover | blur =>
    obtain ⟨v, hv, ha⟩ := Option.bind_eq_some_iff.1 ha
    exact Action.isTidy_of_ofJson? (hfs _ (Entries.mem_of_get? hv)) ha

/-- The reader keeps to what is tidy. -/
theorem reading_tidy : Reading (fun v => v.isTidy = true) Tidy where
  fields h := (Json.isTidy_object.1 h).2
  items := Json.isTidy_array.1
  node {fs children n} hfs hc h := by
    obtain ⟨id, t, m, b, -, -, hm, hb, rfl⟩ := assemble?_eq_some_iff.1 h
    rw [tidy_iff]
    refine ⟨⟨Props.isTidy_recover (isTidy_of_propsField? hfs hm), tidy_of_behavior? hfs hb⟩, ?_⟩
    intro c hmem
    exact hc c (mem_fitChildren hmem)

/-- **What is read from a legible value** is legible. -/
theorem legible_of_ofJson? {v : Json} {n : Node} (hv : v.Legible) (h : ofJson? v = some n) :
    n.Legible := ⟨stable_of_ofJson? v hv.isProper h, reading_tidy.holds v hv.tidy h⟩

end Node

/-! ## Texts -/

namespace Json

/-- A field with a key of its own keeps the fields legible. -/
theorem legible_addField {k : String} {v : Json} {rest ws : Fields}
    (h : Source.addField k v rest = some ws) (hv : v.Legible) (hkeys : (Entries.keys rest).Nodup)
    (hrest : ∀ e ∈ rest, e.2.Legible) : (Entries.keys ws).Nodup ∧ ∀ e ∈ ws, e.2.Legible := by
  unfold Source.addField Entries.contains at h
  split at h
  · cases h
  · next habsent =>
    rw [← Option.some.inj h]
    refine ⟨List.nodup_cons.2 ⟨?_, hkeys⟩, List.forall_mem_cons.2 ⟨hv, hrest⟩⟩
    rw [Bool.not_eq_true, Option.isSome_eq_false_iff, Option.isNone_iff_eq_none] at habsent
    exact Entries.get?_eq_none_iff.1 habsent

mutual
/-- **What is read as a node's value** is legible. -/
theorem legible_of_node? : ∀ (s : Source) {room : Nat} {v : Json}, s.node? room = some v →
    v.Legible
  | .null, _, _, h | .bool _, _, _, h | .number _, _, _, h | .string _, _, _, h =>
    legible_of_value? h
  | .array xs, room, v, h => by
    rw [Source.node?] at h
    split at h
    · cases h
    · obtain ⟨vs, hvs, rfl⟩ := Option.map_eq_some_iff.1 h
      exact legible_array.2 (legible_of_nodeItems? xs 3 hvs)
  | .object fs, room, v, h => by
    rw [Source.node?] at h
    split at h
    · cases h
    · obtain ⟨ws, hws, rfl⟩ := Option.map_eq_some_iff.1 h
      exact legible_object.2 (legible_of_nodeFields? fs hws)

/-- The fields of a node have no key twice: a second one is refused. -/
theorem legible_of_nodeFields? : ∀ (fs : List (Option String × Source)) {room : Nat} {ws : Fields},
    Source.nodeFields? room fs = some ws → (Entries.keys ws).Nodup ∧ ∀ e ∈ ws, e.2.Legible
  | [], _, _, h => by
    rw [← Option.some.inj h]
    exact ⟨List.nodup_nil, fun _ he => absurd he List.not_mem_nil⟩
  | (none, _) :: _, _, _, h => by cases h
  | (some k, v) :: fs, room, ws, h => by
    rw [Source.nodeFields?] at h
    -- children are read as a list, other known fields as values, and the rest is skipped
    split at h
    · simp only [Option.bind_eq_bind, Option.bind_eq_some_iff] at h
      obtain ⟨w, hw, rest, hrest, h⟩ := h
      obtain ⟨hkeys, hvalues⟩ := legible_of_nodeFields? fs hrest
      exact legible_addField h (legible_of_nodeChildren? v hw) hkeys hvalues
    · split at h
      · simp only [Option.bind_eq_bind, Option.bind_eq_some_iff] at h
        obtain ⟨w, hw, rest, hrest, h⟩ := h
        obtain ⟨hkeys, hvalues⟩ := legible_of_nodeFields? fs hrest
        exact legible_addField h (legible_of_value? hw) hkeys hvalues
      · exact legible_of_nodeFields? fs h

/-- The values of a node that is given as an array are legible. -/
theorem legible_of_nodeItems? : ∀ (xs : List Source) (ahead : Nat) {room : Nat} {vs : List Json},
    Source.nodeItems? room ahead xs = some vs → ∀ v ∈ vs, v.Legible
  | [], _, _, _, h => by
    rw [← Option.some.inj h]
    intro v hv
    cases hv
  | x :: xs, 0, room, vs, h => by
    simp only [Source.nodeItems?, if_true, Option.bind_eq_bind, Option.bind_eq_some_iff] at h
    obtain ⟨w, hw, rest, hrest, h⟩ := h
    rw [← Option.some.inj h]
    exact List.forall_mem_cons.2 ⟨legible_of_nodeChildren? x hw, legible_of_values? hrest⟩
  | x :: xs, n + 1, room, vs, h => by
    simp only [Source.nodeItems?, Nat.succ_ne_zero, if_false, Option.bind_eq_bind,
      Option.bind_eq_some_iff] at h
    obtain ⟨w, hw, rest, hrest, h⟩ := h
    rw [← Option.some.inj h]
    exact List.forall_mem_cons.2 ⟨legible_of_value? hw, legible_of_nodeItems? xs n hrest⟩

/-- A list of children is legible. -/
theorem legible_of_nodeChildren? : ∀ (s : Source) {room : Nat} {v : Json},
    s.nodeChildren? room = some v → v.Legible
  | .null, _, _, h | .bool _, _, _, h | .number _, _, _, h | .string _, _, _, h
  | .object _, _, _, h => legible_of_value? h
  | .array xs, room, v, h => by
    rw [Source.nodeChildren?] at h
    split at h
    · cases h
    · obtain ⟨vs, hvs, rfl⟩ := Option.map_eq_some_iff.1 h
      exact legible_array.2 (legible_of_nodeList? xs hvs)

/-- The trees of a list are legible, one by one. -/
theorem legible_of_nodeList? : ∀ (xs : List Source) {room : Nat} {vs : List Json},
    Source.nodeList? room xs = some vs → ∀ v ∈ vs, v.Legible
  | [], _, _, h => by
    rw [← Option.some.inj h]
    intro v hv
    cases hv
  | x :: xs, room, vs, h => by
    simp only [Source.nodeList?, Option.bind_eq_bind, Option.bind_eq_some_iff] at h
    obtain ⟨w, hw, rest, hrest, h⟩ := h
    rw [← Option.some.inj h]
    exact List.forall_mem_cons.2 ⟨legible_of_node? x hw, legible_of_nodeList? xs hrest⟩
end

end Json

namespace Node

/-- **What a text spells** is legible. -/
theorem legible_of_ofSource? {s : Json.Source} {room : Nat} {n : Node}
    (h : ofSource? room s = some n) : n.Legible := by
  obtain ⟨v, hv, h⟩ := Option.bind_eq_some_iff.1 h
  exact legible_of_ofJson? (Json.legible_of_node? s hv) h

/-- **What is read from a text is legible.** -/
theorem legible_of_ofText? {s : String} {n : Node} (h : ofText? s = some n) : n.Legible := by
  obtain ⟨t, -, h⟩ := Option.bind_eq_some_iff.1 h
  exact legible_of_ofSource? h

end Node
end PageBuilder
