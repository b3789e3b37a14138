/-
  A tree that was written as text reads again, and a tree that is sent arrives.

  Specification:  `exists_ofSource?` — the spelling of a tree reads as a tree within its depth;
                  `Message.exists_carried?` — so a tree arrives, if the message nests no deeper than
                  the reader allows and its numbers are numbers that there are.
  Crux:           what a node is read from may differ from what was written in its numbers only, and
                  no field that a node must have is a number; so its fields are followed one by one,
                  by what is under their keys.
-/
import PageBuilder.Proofs.Json.ReadBack
import PageBuilder.Proofs.Node.RoundTrip
import PageBuilder.Sync.Message

namespace PageBuilder

/-! ## Fields that are read one by one -/

namespace Json

/-- What is read under a key of a node. -/
def part? (room : Nat) (k : String) (s : Source) : Option Json :=
  if k = "children" then s.nodeChildren? room else s.value? room

/-- **The fields of a node**, each read on its own. -/
theorem exists_nodeFields? {room : Nat} {fs : Fields} (hkeys : (Entries.keys fs).Nodup)
    (hnames : ∀ k ∈ Entries.keys fs, k ∈ Node.fieldNames)
    (hparts : ∀ k v, Entries.get? fs k = some v → ∃ w, part? room k v.spell = some w) :
    ∃ ws, Source.nodeFields? room (spellFields fs) = some ws ∧
      Entries.keys ws = Entries.keys fs ∧
      ∀ k, Entries.get? ws k = (Entries.get? fs k).bind fun v => part? room k v.spell := by
  induction fs with
  | nil => exact ⟨[], rfl, rfl, fun _ => rfl⟩
  | cons e fs ih =>
    obtain ⟨k, v⟩ := e
    obtain ⟨hk, hkeys⟩ := List.nodup_cons.1 hkeys
    obtain ⟨hname, hnames⟩ := List.forall_mem_cons.1 hnames
    obtain ⟨w, hw⟩ := hparts k v (by rw [Entries.get?, if_pos rfl])
    have hrest : ∀ x y, Entries.get? fs x = some y → ∃ w, part? room x y.spell = some w := by
      intro x y hy
      refine hparts x y ?_
      rw [Entries.get?, if_neg ?_]
      · exact hy
      · rintro rfl
        exact hk (Entries.mem_keys_of_get? hy)
    obtain ⟨ws, hws, hwskeys, hget⟩ := ih hkeys hnames hrest
    -- a field that comes a second time would be refused
    have hadd : Source.addField k w ws = some ((k, w) :: ws) := by
      have habsent : Entries.get? ws k = none := by
        rw [Entries.get?_eq_none_iff, hwskeys]
        exact hk
      unfold Source.addField Entries.contains
      rw [habsent]
      rfl
    refine ⟨(k, w) :: ws, ?_, ?_, ?_⟩
    · unfold part? at hw
      rw [spellFields, Source.nodeFields?]
      split
      · next hchildren =>
        rw [if_pos hchildren] at hw
        rw [hw, hws]
        exact hadd
      · next hchildren =>
        rw [if_neg hchildren] at hw
        rw [if_pos (List.contains_iff_mem.2 hname), hw, hws]
        exact hadd
    · show k :: Entries.keys ws = k :: Entries.keys fs
      rw [hwskeys]
    · intro x
      rw [Entries.get?, Entries.get?]
      split
      · next hx =>
        rw [Option.bind_some, ← hx]
        exact hw.symm
      · exact hget x

/-- A string that is no list of children reads as it was. -/
theorem part?_string {room : Nat} {k : String} (hk : k ≠ "children") (o : Option String) :
    ((o.map Json.string).bind fun v => part? room k v.spell) = o.map .string := by
  cases o with
  | none => rfl
  | some s =>
    rw [Option.map_some, Option.bind_some, part?, if_neg hk]
    rfl

end Json

namespace Node

/-! ## The keys of a written node -/

/-- A field that is written if it is set has no other key. -/
theorem keys_setField (k : String) (s : Option String) :
    (Entries.keys (Json.setField k s)).Sublist [k] := by
  cases s with
  | none => exact List.nil_sublist _
  | some s => exact List.Sublist.refl _

/-- An optional field has no other key. -/
theorem keys_toList_map {α : Type} (k : String) (f : α → Json) (o : Option α) :
    (Entries.keys (o.map fun a => (k, f a)).toList).Sublist [k] := by
  cases o with
  | none => exact List.nil_sublist _
  | some a => exact List.Sublist.refl _

/-- A node is written with some of the fields that it has, each once. -/
theorem keys_wireFields (id : String) (p : Props) (list : Option (List Json)) (b : Behavior) :
    (Entries.keys (wireFields id p list b)).Sublist fieldNames := by
  have hbehavior : (Entries.keys (behaviorFields b)).Sublist (["tooltip"] ++ ["animation"]
      ++ ["bind"] ++ ["visibleIf"] ++ ["onClick"] ++ ["onHover"] ++ ["onBlur"]) := by
    unfold behaviorFields actionField
    simp only [Entries.keys_append]
    exact ((((((keys_setField _ _).append (keys_toList_map _ _ _)).append (keys_setField _ _)).append
      (keys_setField _ _)).append (keys_toList_map _ _ _)).append (keys_toList_map _ _ _)).append
      (keys_toList_map _ _ _)
  have hchildren := (keys_toList_map "children" Json.array list).append hbehavior
  unfold wireFields
  rw [Entries.keys_append, Entries.keys_append]
  exact (List.Sublist.refl ["id", "type", "props"]).append hchildren

/-! ## The parts of a node -/

/-- The texts of behavior, by their keys. -/
theorem get?_behaviorFields (b : Behavior) :
    Entries.get? (behaviorFields b) "tooltip" = b.tooltip.map .string ∧
    Entries.get? (behaviorFields b) "bind" = b.bind.map .string ∧
    Entries.get? (behaviorFields b) "visibleIf" = b.visibleIf.map .string := by
  simp [behaviorFields, Entries.get?_append, Json.get?_setField, Json.get?_toList_map,
    get?_actionField]

/-- Behavior reads from any object in which the texts of behavior stand. -/
theorem exists_behavior? {fs : Json.Fields} {b : Behavior}
    (htooltip : Entries.get? fs "tooltip" = b.tooltip.map .string)
    (hbind : Entries.get? fs "bind" = b.bind.map .string)
    (hvisible : Entries.get? fs "visibleIf" = b.visibleIf.map .string) :
    ∃ c, behavior? fs = some c := by
  unfold behavior? variableName?
  rw [optionalString?_of_get? htooltip, optionalString?_of_get? hbind, optionalString?_of_get? hvisible]
  exact ⟨_, rfl⟩

/-- The children of a node read if each of them does. -/
theorem exists_nodeList? {room : Nat} : ∀ {cs : List Node},
    (∀ c ∈ cs, ∃ w t, c.toJson.spell.node? room = some w ∧ ofJson? w = some t) →
    ∃ ws ts, Json.Source.nodeList? room (Json.spellItems (toJsonAll cs)) = some ws ∧
      ofJsonAll? ws = some ts
  | [], _ => ⟨[], [], rfl, rfl⟩
  | c :: cs, h => by
    obtain ⟨⟨w, t, hw, ht⟩, hcs⟩ := List.forall_mem_cons.1 h
    obtain ⟨ws, ts, hws, hts⟩ := exists_nodeList? hcs
    refine ⟨w :: ws, t :: ts, ?_, ?_⟩
    · rw [toJsonAll, Json.spellItems, Json.Source.nodeList?, hw, hws]
      rfl
    · rw [ofJsonAll?, ht, hts]

/-- Every tree of a list is written. -/
theorem mem_toJsonAll {cs : List Node} {c : Node} (h : c ∈ cs) : c.toJson ∈ toJsonAll cs := by
  induction cs with
  | nil => cases h
  | cons d ds ih =>
    rcases List.mem_cons.1 h with rfl | h
    · exact List.mem_cons_self
    · exact List.mem_cons_of_mem _ (ih h)

/-- The list of a node's children reads if each of them does. -/
theorem exists_nodeChildren? {room : Nat} {cs : List Node}
    (hcs : (Json.array (toJsonAll cs)).Representable)
    (hdepth : (Json.array (toJsonAll cs)).depth ≤ room)
    (ih : ∀ c ∈ cs, ∀ {room : Nat}, c.toJson.Representable → c.toJson.depth ≤ room →
      ∃ w t, c.toJson.spell.node? room = some w ∧ ofJson? w = some t) :
    ∃ ws ts, (Json.array (toJsonAll cs)).spell.nodeChildren? room = some (.array ws) ∧
      ofJsonAll? ws = some ts := by
  rw [Json.depth] at hdepth
  -- a list spends one level of the room, so the trees in it have one less
  have hread : ∀ c ∈ cs, ∃ w t, c.toJson.spell.node? (room - 1) = some w ∧ ofJson? w = some t := by
    intro c hc
    have hmem := mem_toJsonAll hc
    exact ih c hc (Json.representable_array.1 hcs _ hmem)
      (Nat.le_trans (Json.depth_le_depthItems hmem) (Nat.le_sub_of_add_le hdepth))
  obtain ⟨ws, ts, hws, hts⟩ := exists_nodeList? hread
  refine ⟨ws, ts, ?_, hts⟩
  rw [Json.spell, Json.Source.nodeChildren?, if_neg (by omega), hws, Option.map_some]

/-- What was read of a node gives a node. -/
theorem exists_assemble? {fs : Json.Fields} {id t : String} {m : Json.Fields} {b : Behavior}
    (hid : Entries.get? fs "id" = some (.string id))
    (htype : Entries.get? fs "type" = some (.string t))
    (hprops : Entries.get? fs "props" = some (.object m)) (hbehavior : behavior? fs = some b)
    (children : Option (List Node)) : ∃ n, assemble? fs children = some n := by
  unfold assemble? Json.requiredString? propsField?
  rw [hid, htype, hprops, hbehavior]
  exact ⟨_, rfl⟩

theorem nodup_fieldNames : fieldNames.Nodup := by decide

/-- The fields of a node as it is written. -/
def written (n : Node) : Json.Fields :=
  wireFields n.id n.props (n.children.map toJsonAll) n.behavior

/-- **A node from fields of which each was read on its own**: it is there if its props are and its
children are. -/
theorem exists_ofParts? {n : Node} {room : Nat} {ws m : Json.Fields}
    (hget : ∀ k, Entries.get? ws k
      = (Entries.get? n.written k).bind fun v => Json.part? room k v.spell)
    (hprops : (Json.object n.props.toFields).spell.value? room = some (.object m))
    (hchildren : ∀ {cs}, n.children = some cs → ∃ vs ts,
      Json.part? room "children" (Json.array (toJsonAll cs)).spell = some (.array vs) ∧
        ofJsonAll? vs = some ts) : ∃ t, ofJson? (.object ws) = some t := by
  have hspells : Spells n.written n.id n.props n.behavior := spells_wireFields ..
  -- a text that is written reads as that text, and one that is not written is missing
  have htext : ∀ {k : String} (o : Option String), k ≠ "children" →
      Entries.get? n.written k = o.map .string → Entries.get? ws k = o.map .string := by
    intro k o hk ho
    rw [hget, ho]
    exact Json.part?_string hk o
  have hobject : Entries.get? ws "props" = some (.object m) := by
    rw [hget, hspells.props, Option.bind_some, Json.part?, if_neg (by decide)]
    exact hprops
  obtain ⟨htooltip, hbind, hvisible⟩ := get?_behaviorFields n.behavior
  obtain ⟨b, hb⟩ := exists_behavior?
    (htext n.behavior.tooltip (by decide) ((hspells.behavior _ (by decide)).trans htooltip))
    (htext n.behavior.bind (by decide) ((hspells.behavior _ (by decide)).trans hbind))
    (htext n.behavior.visibleIf (by decide) ((hspells.behavior _ (by decide)).trans hvisible))
  obtain ⟨children, hfield⟩ : ∃ children, childrenField? ws = some children := by
    rw [childrenField?_eq, hget, written, get?_wireFields_children]
    -- a list that is there is written even when it is empty
    cases hcs : n.children with
    | none => exact ⟨none, rfl⟩
    | some cs =>
      obtain ⟨vs, ts, hvs, hts⟩ := hchildren hcs
      rw [Option.map_some, Option.map_some, Option.bind_some, hvs]
      refine ⟨some ts, ?_⟩
      dsimp only
      rw [childrenOf?, hts, Option.map_some]
  obtain ⟨t, ht⟩ := exists_assemble? (htext (some n.id) (by decide) hspells.id)
    (htext (some n.props.typeName) (by decide) hspells.typeName) hobject hb children
  refine ⟨t, ?_⟩
  rw [ofJson?, hfield]
  exact ht

/-- **The spelling of a tree reads** as a tree within its depth. -/
theorem exists_node? : ∀ (n : Node) {room : Nat}, n.toJson.Representable → n.toJson.depth ≤ room →
    ∃ w t, n.toJson.spell.node? room = some w ∧ ofJson? w = some t := by
  refine induct fun n ih room hn hdepth => ?_
  have hwritten : n.toJson = .object n.written := toJson_eq n
  rw [hwritten] at hn hdepth ⊢
  rw [Json.depth] at hdepth
  have hvalue : ∀ {k v}, Entries.get? n.written k = some v →
      v.Representable ∧ v.depth ≤ room - 1 := by
    intro k v hv
    have hmem := Entries.mem_of_get? hv
    exact ⟨Json.representable_object.1 hn _ hmem,
      Nat.le_trans (Json.depth_le_depthFields hmem) (Nat.le_sub_of_add_le hdepth)⟩
  have hlist : Entries.get? n.written "children" = (n.children.map toJsonAll).map .array :=
    get?_wireFields_children ..
  have hchildren : ∀ {cs}, n.children = some cs → ∃ vs ts,
      Json.part? (room - 1) "children" (Json.array (toJsonAll cs)).spell = some (.array vs) ∧
        ofJsonAll? vs = some ts := by
    intro cs hcs
    rw [hcs] at hlist
    obtain ⟨hrep, hroom⟩ := hvalue hlist
    exact exists_nodeChildren? hrep hroom fun c hc => ih c (by rw [childList, hcs]; exact hc)
  have hparts : ∀ k v, Entries.get? n.written k = some v →
      ∃ w, Json.part? (room - 1) k v.spell = some w := by
    intro k v hv
    -- children are read as nodes, whatever is under any other key as a value
    by_cases hk : k = "children"
    · subst hk
      rw [hlist] at hv
      cases hcs : n.children with
      | none =>
        rw [hcs] at hv
        cases hv
      | some cs =>
        rw [hcs] at hv
        rw [← Option.some.inj hv]
        obtain ⟨vs, -, hvs, -⟩ := hchildren hcs
        exact ⟨_, hvs⟩
    · obtain ⟨hrep, hroom⟩ := hvalue hv
      unfold Json.part?
      rw [if_neg hk]
      exact Json.exists_value? v hrep hroom
  have hkeys : (Entries.keys n.written).Sublist fieldNames := keys_wireFields ..
  obtain ⟨ws, hws, -, hget⟩ := Json.exists_nodeFields? (nodup_fieldNames.sublist hkeys)
    (fun k hk => hkeys.subset hk) hparts
  have hspells : Spells n.written n.id n.props n.behavior := spells_wireFields ..
  obtain ⟨hrep, hroom⟩ := hvalue hspells.props
  obtain ⟨m, hm⟩ := Json.exists_value?_object hrep hroom
  obtain ⟨t, ht⟩ := exists_ofParts? hget hm hchildren
  refine ⟨.object ws, t, ?_, ht⟩
  rw [Json.spell, Json.Source.node?, if_neg (by omega), hws, Option.map_some]

/-- **A tree reads back from its text** when its numbers exist and it fits the depth. -/
theorem exists_ofSource? {n : Node} {room : Nat} (hn : n.toJson.Representable)
    (hdepth : n.toJson.depth ≤ room) : ∃ t, ofSource? room n.toJson.spell = some t := by
  obtain ⟨w, t, hw, ht⟩ := exists_node? n hn hdepth
  refine ⟨t, ?_⟩
  rw [ofSource?, hw, Option.bind_some, ht]

end Node

/-! ## Messages -/

namespace Message

/-- **What is sent arrives**, if the message nests no deeper than the reader allows and its numbers
are numbers that there are. -/
theorem exists_carried? {n : Node} (hn : n.toJson.Representable)
    (hdepth : (toJson n).depth ≤ Json.maxDepth) : ∃ t, carried? n = some t := by
  -- the message is one object around the tree
  have hroom : n.toJson.depth ≤ room := by
    have hmem : (payloadKey, n.toJson) ∈ [(typeKey, Json.string typeName), (payloadKey, n.toJson)] :=
      List.mem_cons_of_mem _ List.mem_cons_self
    have hbelow := Json.depth_le_depthFields hmem
    rw [toJson, Json.depth] at hdepth
    exact Nat.le_trans hbelow (Nat.le_sub_of_add_le hdepth)
  obtain ⟨t, ht⟩ := Node.exists_ofSource? hn hroom
  have hspell : Json.Source.ofText? (encode n) = some (toJson n).spell :=
    Json.ofText?_write Json.Style.blank_compact (toJson n)
  refine ⟨t, ?_⟩
  rw [carried?, decode?, hspell, Option.bind_some]
  exact ht

end Message

end PageBuilder
