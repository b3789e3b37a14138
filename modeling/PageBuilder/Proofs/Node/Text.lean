/-
  The text of a tree.

  A tree is written as any value is, but read in a way of its own: what a node does not have is passed
  over.  The writer puts nothing else there, so this makes no difference to what it wrote.

  Specification:  `node?_spell` — the spelling of a tree reads as a node's as it reads as a value;
                  `ofText?_write_eq`, `Message.carried?_eq` — so the text of a tree reads, and a tree
                  that is sent arrives, as the tree that comes back from the wire, if it nests no
                  deeper than the reader allows, and else not at all.
-/
import PageBuilder.Proofs.Json.Faithful
import PageBuilder.Proofs.Node.ReadBack

namespace PageBuilder

/-! ## Fields -/

namespace Json

variable {room : Nat}

/-- The reader of a node's fields adds none. -/
theorem keys_nodeFields?_subset : ∀ {fs ws : Fields},
    Source.nodeFields? room (spellFields fs) = some ws → Entries.keys ws ⊆ Entries.keys fs
  | [], _, h => by
    rw [← Option.some.inj h]
    exact List.Subset.refl _
  | (k, v) :: fs, ws, h => by
    have hadd : ∀ {w : Json} {rest : Fields}, Source.addField k w rest = some ws →
        Entries.keys ws = k :: Entries.keys rest := by
      intro w rest hadd
      unfold Source.addField at hadd
      split at hadd
      · cases hadd
      · rw [← Option.some.inj hadd]
        rfl
    rw [spellFields, Source.nodeFields?] at h
    -- the children, another field of a node, or a key that is skipped
    split at h
    · simp only [Option.bind_eq_bind, Option.bind_eq_some_iff] at h
      obtain ⟨w, -, rest, hrest, h⟩ := h
      rw [hadd h]
      exact List.cons_subset_cons k (keys_nodeFields?_subset hrest)
    · split at h
      · simp only [Option.bind_eq_bind, Option.bind_eq_some_iff] at h
        obtain ⟨w, -, rest, hrest, h⟩ := h
        rw [hadd h]
        exact List.cons_subset_cons k (keys_nodeFields?_subset hrest)
      · exact List.Subset.trans (keys_nodeFields?_subset h) (List.subset_cons_self _ _)

/-- A field that a node has, in front of others. -/
theorem nodeFields?_cons {k : String} {v : Json} {fs : Fields} (hk : k ∉ Entries.keys fs)
    (hname : k ∈ Node.fieldNames) :
    Source.nodeFields? room (spellFields ((k, v) :: fs))
      = (part? room k v.spell).bind fun w =>
        (Source.nodeFields? room (spellFields fs)).map ((k, w) :: ·) := by
  -- a key that does not come again is never refused as a second one
  have hadd : ∀ w, ((Source.nodeFields? room (spellFields fs)).bind fun rest =>
      Source.addField k w rest)
        = (Source.nodeFields? room (spellFields fs)).map ((k, w) :: ·) := by
    intro w
    cases hrest : Source.nodeFields? room (spellFields fs) with
    | none => rfl
    | some rest =>
      have habsent : Entries.get? rest k = none :=
        Entries.get?_eq_none_iff.2 fun h => hk (keys_nodeFields?_subset hrest h)
      rw [Option.bind_some, Source.addField, Entries.contains, habsent]
      rfl
  rw [spellFields, Source.nodeFields?, part?]
  split
  · exact congrArg _ (funext hadd)
  · rw [if_pos (List.contains_iff_mem.2 hname)]
    exact congrArg _ (funext hadd)

/-- **Fields that a node has**, each once, read as the fields of any object do. -/
theorem fields?_spellFields : ∀ {fs before : Fields}, (Entries.keys (before ++ fs)).Nodup →
    (∀ k ∈ Entries.keys fs, k ∈ Node.fieldNames) →
    (∀ e ∈ fs, part? room e.1 e.2.spell = e.2.spell.value? room) →
    Source.fields? room before (spellFields fs)
      = (Source.nodeFields? room (spellFields fs)).map (before ++ ·)
  | [], before, _, _, _ => by
    show some before = some (before ++ [])
    rw [List.append_nil]
  | (k, v) :: fs, before, hkeys, hnames, hparts => by
    obtain ⟨hname, hnames⟩ := List.forall_mem_cons.1 hnames
    obtain ⟨hpart, hparts⟩ := List.forall_mem_cons.1 hparts
    have hsplit := hkeys
    rw [Entries.keys_append, List.nodup_append] at hsplit
    obtain ⟨-, hrest, hapart⟩ := hsplit
    have hbefore : k ∉ Entries.keys before := fun h => hapart k h k List.mem_cons_self rfl
    rw [nodeFields?_cons (List.nodup_cons.1 hrest).1 hname, hpart, spellFields, Source.fields?]
    rw [List.append_cons] at hkeys
    -- what is read so far is kept in front, so the induction is over any such fields
    cases v.spell.value? room with
    | none => rfl
    | some w =>
      have hkeys' : (Entries.keys (before ++ [(k, w)] ++ fs)).Nodup := by
        rw [Entries.keys_append, Entries.keys_append] at hkeys ⊢
        exact hkeys
      show Source.fields? room (Entries.put before k w) (spellFields fs) = _
      rw [Entries.put_of_notMem hbefore w, fields?_spellFields hkeys' hnames hparts,
        Option.bind_some, Option.map_map]
      exact congrArg (Option.map · _) (funext fun ws => (List.append_cons before (k, w) ws).symm)

end Json

/-! ## Trees -/

namespace Node

variable {n : Node} {room : Nat}

/-- Nodes in a list read as values do, if each of them does. -/
theorem nodeList?_spell : ∀ {cs : List Node},
    (∀ c ∈ cs, c.toJson.spell.node? room = c.toJson.spell.value? room) →
    Json.Source.nodeList? room (Json.spellItems (toJsonAll cs))
      = Json.Source.values? room (Json.spellItems (toJsonAll cs))
  | [], _ => rfl
  | c :: cs, h => by
    obtain ⟨hc, hcs⟩ := List.forall_mem_cons.1 h
    rw [toJsonAll, Json.spellItems, Json.Source.nodeList?, Json.Source.values?, hc,
      nodeList?_spell hcs]

/-- **The spelling of a tree** reads as a node's as it reads as a value. -/
theorem node?_spell : ∀ (n : Node) (room : Nat),
    n.toJson.spell.node? room = n.toJson.spell.value? room := by
  refine induct fun n ih room => ?_
  have hkeys : (Entries.keys n.written).Sublist fieldNames := keys_wireFields ..
  have hparts : ∀ e ∈ n.written,
      Json.part? (room - 1) e.1 e.2.spell = e.2.spell.value? (room - 1) := by
    intro e he
    unfold Json.part?
    split
    · -- the children, each of which is a node again
      next hchildren =>
      obtain ⟨cs, hcs, hlist⟩ : ∃ cs, n.children = some cs ∧ e.2 = .array (toJsonAll cs) := by
        have hget : Entries.get? n.written e.1 = some e.2 :=
          Entries.get?_of_mem (nodup_fieldNames.sublist hkeys) he
        rw [hchildren, written, get?_wireFields_children] at hget
        obtain ⟨vs, hvs, hlist⟩ := Option.map_eq_some_iff.1 hget
        obtain ⟨cs, hcs, rfl⟩ := Option.map_eq_some_iff.1 hvs
        exact ⟨cs, hcs, hlist.symm⟩
      have hbelow : ∀ c ∈ cs, c.toJson.spell.node? (room - 1 - 1)
          = c.toJson.spell.value? (room - 1 - 1) := by
        intro c hc
        refine ih c ?_ _
        unfold childList
        rw [hcs]
        exact hc
      rw [hlist, Json.spell, Json.Source.nodeChildren?, Json.Source.value?, nodeList?_spell hbelow]
    · rfl
  have hfields : Json.Source.fields? (room - 1) [] (Json.spellFields n.written)
      = (Json.Source.nodeFields? (room - 1) (Json.spellFields n.written)).map ([] ++ ·) :=
    Json.fields?_spellFields (nodup_fieldNames.sublist hkeys) (fun k hk => hkeys.subset hk) hparts
  have hwritten : n.toJson = .object n.written := toJson_eq n
  rw [hwritten, Json.spell, Json.Source.node?, Json.Source.value?, hfields, Option.map_map]
  rfl

/-- **The spelling of a tree** reads as the tree that comes back from the wire, or nests too deep. -/
theorem ofSource?_spell (hn : n.toJson.Faithful) (room : Nat) :
    ofSource? room n.toJson.spell = if n.toJson.depth ≤ room then ofJson? n.toJson else none := by
  rw [ofSource?, node?_spell, Json.value?_spell n.toJson room hn]
  split <;> rfl

/-- **The text of a tree** reads as the tree that comes back from the wire, or nests too deep. -/
theorem ofText?_write_eq {st : Json.Style} (hst : st.Blank) (hn : n.toJson.Faithful) :
    ofText? (String.ofList (Json.write st 0 n.toJson))
      = if n.toJson.depth ≤ Json.maxDepth then ofJson? n.toJson else none := by
  rw [ofText?, Json.ofText?_write hst, Option.bind_some, ofSource?_spell hn]

/-- A tree written over several lines. -/
theorem ofText?_pretty (hn : n.toJson.Faithful) :
    ofText? n.pretty = if n.toJson.depth ≤ Json.maxDepth then ofJson? n.toJson else none :=
  ofText?_write_eq Json.Style.blank_pretty hn

end Node

/-! ## Messages -/

namespace Message

variable {n : Node}

theorem depth_toJson (n : Node) : (toJson n).depth = n.toJson.depth + 1 := by
  show max 0 (max n.toJson.depth 0) + 1 = _
  omega

/-- **What arrives** of a tree is the tree that comes back from the wire, if the message nests no
deeper than the reader allows. -/
theorem carried?_eq (hn : n.toJson.Faithful) :
    carried? n = if (toJson n).depth ≤ Json.maxDepth then Node.ofJson? n.toJson else none := by
  have hspell : Json.Source.ofText? (encode n) = some (toJson n).spell :=
    Json.ofText?_write Json.Style.blank_compact (toJson n)
  have hparts : ofSource? (toJson n).spell = Node.ofSource? room n.toJson.spell := rfl
  have hroom : n.toJson.depth ≤ room ↔ (toJson n).depth ≤ Json.maxDepth := by
    rw [depth_toJson]
    exact Nat.le_sub_iff_add_le (by decide)
  rw [carried?, decode?, hspell, Option.bind_some, hparts, Node.ofSource?_spell hn]
  by_cases hdepth : (toJson n).depth ≤ Json.maxDepth
  · rw [if_pos hdepth, if_pos (hroom.2 hdepth)]
  · rw [if_neg hdepth, if_neg (mt hroom.1 hdepth)]

/-- **A tree that comes back from the wire** arrives as it was sent. -/
theorem carried?_eq_self (hn : n.toJson.Faithful) (hstable : n.WireStable)
    (hdepth : (toJson n).depth ≤ Json.maxDepth) : carried? n = some n := by
  rw [carried?_eq hn, if_pos hdepth]
  exact hstable

end Message

end PageBuilder
