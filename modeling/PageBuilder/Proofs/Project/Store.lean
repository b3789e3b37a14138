/-
  Projects in a file, and the same projects in memory.

  A file is written whole, so saving a project writes all earlier ones again.  The writer has no limit
  on nesting and the reader has one, and what is read may be spelled shorter than it is written.

  Programs:       `saveAll` — saves, one after the other.
  Specification:  `list_save_iff` — after a save the file lists what memory lists if and only if the
                  new tree comes back from the wire and no tree of all nests too deep; a tree that
                  does leaves nothing to be listed.
  Crux:           `listOfText?_listText` — in the text of projects a tree stands two levels deep.
-/
import PageBuilder.Project.Store
import PageBuilder.Proofs.Node.Tidy

namespace PageBuilder.Project

variable {p : Project} {ps : List Project} {room : Nat}

/-! ## Projects that are read -/

/-- **A legible project**: its tree is legible, and its time is a number of 64 bits with a sign. -/
structure Legible (p : Project) : Prop where
  schema : p.schema.Legible
  since : -(Json.Number.halfWord : Int) ≤ p.savedAt
  before : p.savedAt < (Json.Number.halfWord : Int)

/-- A time that is read is one of 64 bits. -/
theorem time?_spec {v : Json} {i : Int} (hv : v.Legible) (h : time? v = some i) :
    -(Json.Number.halfWord : Int) ≤ i ∧ i < (Json.Number.halfWord : Int) := by
  unfold time? at h
  split at h
  · next j =>
    split at h
    · next hbefore =>
      obtain rfl := Option.some.inj h
      have hrange : Json.Number.inRange j = true := hv.representable _ List.mem_cons_self
      rw [Json.Number.inRange, Bool.and_eq_true, decide_eq_true_iff] at hrange
      exact ⟨hrange.1, hbefore⟩
    · cases h
  · cases h

/-- **What a text spells as a project** is legible. -/
theorem legible_of_ofSource? {s : Json.Source} (h : ofSource? room s = some p) : p.Legible := by
  simp only [ofSource?, Option.bind_eq_bind, Option.bind_eq_some_iff] at h
  obtain ⟨fs, -, id, -, name, -, schema, ⟨t, -, hschema⟩, savedAt, ⟨u, -, v, hv, htime⟩, h⟩ := h
  rw [← Option.some.inj h]
  obtain ⟨hsince, hbefore⟩ := time?_spec (Json.legible_of_value? hv) htime
  exact ⟨Node.legible_of_ofSource? hschema, hsince, hbefore⟩

/-- Whatever a list is mapped to comes from an item of it. -/
theorem exists_of_mem_mapM {α β : Type} {f : α → Option β} : ∀ {xs : List α} {ys : List β},
    xs.mapM f = some ys → ∀ y ∈ ys, ∃ x ∈ xs, f x = some y
  | [], ys, h, y, hy => by
    rw [← Option.some.inj h] at hy
    cases hy
  | x :: xs, ys, h, y, hy => by
    simp only [List.mapM_cons, Option.bind_eq_bind, Option.bind_eq_some_iff] at h
    obtain ⟨z, hz, zs, hzs, h⟩ := h
    rw [← Option.some.inj h] at hy
    rcases List.mem_cons.1 hy with rfl | hy
    · exact ⟨x, List.mem_cons_self, hz⟩
    · obtain ⟨w, hw, hfw⟩ := exists_of_mem_mapM hzs y hy
      exact ⟨w, List.mem_cons_of_mem _ hw, hfw⟩

/-- **What is listed of a file** is legible. -/
theorem legible_of_listOfFile {c : FileContent} (h : listOfFile c = .ok ps) : ∀ p ∈ ps, p.Legible := by
  unfold listOfFile at h
  -- no file, one that cannot be read, an empty one, or a text
  split at h
  · rw [← Except.ok.inj h]
    intro p hp
    cases hp
  · cases h
  · split at h
    · rw [← Except.ok.inj h]
      intro p hp
      cases hp
    · split at h
      · next hread =>
        obtain rfl := Except.ok.inj h
        simp only [listOfText?, Option.bind_eq_bind, Option.bind_eq_some_iff] at hread
        obtain ⟨t, -, xs, -, hxs⟩ := hread
        intro p hp
        obtain ⟨x, -, hx⟩ := exists_of_mem_mapM hxs p hp
        exact legible_of_ofSource? hx
      · cases h

/-! ## Projects that are written -/

/-- **The spelling of a legible project** reads as that project, or nests too deep. -/
theorem ofSource?_spell (hp : p.Legible) (hn : ∀ n ∈ p.schema.toJson.numbers, n.Survives)
    (room : Nat) :
    ofSource? room p.toJson.spell
      = if p.schema.toJson.depth ≤ room - 1 then some p else none := by
  have hrecord : (p.toJson.spell.renameField savedAtAlias "savedAt").record? fieldNames
      = some [("id", .string (some p.id)), ("name", .string (some p.name)),
        ("schema", p.schema.toJson.spell), ("savedAt", (Json.number (.whole p.savedAt)).spell)] := by
    rfl
  have hstable : Node.ofJson? p.schema.toJson = some p.schema := Node.wireStable_iff.2 hp.schema.stable
  have hrange : Json.Number.inRange p.savedAt = true := by
    have hbefore := hp.before
    have hhalf : (Json.Number.halfWord : Int) ≤ Json.Number.wordSize := by decide
    simp only [Json.Number.inRange, Bool.and_eq_true, decide_eq_true_eq]
    exact ⟨hp.since, by omega⟩
  have htime : ((Json.number (.whole p.savedAt)).spell.value? 0).bind time? = some p.savedAt := by
    rw [Json.Number.value?_of_survives (Json.Number.survives_whole hrange), Option.bind_some, time?,
      if_pos hp.before]
  -- the record is one level, so its tree has one less
  have hparts : ofSource? room p.toJson.spell
      = (Node.ofSource? (room - 1) p.schema.toJson.spell).bind fun schema =>
        (((Json.number (.whole p.savedAt)).spell.value? 0).bind time?).bind fun savedAt =>
          some ⟨p.id, p.name, schema, savedAt⟩ := by
    unfold ofSource?
    rw [hrecord]
    rfl
  rw [hparts, Node.ofSource?_spell (hp.schema.faithful hn), hstable, htime]
  split <;> rfl

/-- The text of a list of projects is not blank. -/
theorem allBlank_listText (ps : List Project) : Text.allBlank (listText ps) = false := by
  have hopens : ∃ r, Json.write .pretty 0 (.array (ps.map toJson)) = '[' :: r := by
    cases ps with
    | nil => exact ⟨_, rfl⟩
    | cons p ps => exact ⟨_, rfl⟩
  obtain ⟨r, hr⟩ := hopens
  unfold Text.allBlank listText Json.pretty
  rw [hr, String.toList_ofList]
  rfl

/-- Projects are spelled one by one. -/
theorem spellItems_map (ps : List Project) :
    Json.spellItems (ps.map toJson) = ps.map fun p => p.toJson.spell := by
  induction ps with
  | nil => rfl
  | cons p ps ih => rw [List.map_cons, List.map_cons, Json.spellItems, ih]

/-- **Whether a tree can stand** in the text of a list of projects. -/
def Shallow (p : Project) : Prop := p.schema.toJson.depth + 2 ≤ Json.maxDepth

instance (p : Project) : Decidable p.Shallow :=
  inferInstanceAs (Decidable (p.schema.toJson.depth + 2 ≤ Json.maxDepth))

/-- **The text of legible projects** reads as those projects, or one of them nests too deep. -/
theorem listOfText?_listText (hps : ∀ p ∈ ps, p.Legible)
    (hn : ∀ p ∈ ps, ∀ n ∈ p.schema.toJson.numbers, n.Survives) :
    listOfText? (listText ps) = if ∀ p ∈ ps, p.Shallow then some ps else none := by
  have htext : Json.Source.ofText? (listText ps) = some (Json.array (ps.map toJson)).spell :=
    Json.ofText?_write Json.Style.blank_pretty _
  have hparts : listOfText? (listText ps)
      = (ps.map fun p => p.toJson.spell).mapM (ofSource? (Json.maxDepth - 1)) := by
    unfold listOfText?
    rw [htext, Json.spell, spellItems_map]
    rfl
  rw [hparts]
  clear htext hparts
  induction ps with
  | nil => rfl
  | cons p ps ih =>
    obtain ⟨hp, hps⟩ := List.forall_mem_cons.1 hps
    obtain ⟨hn, hns⟩ := List.forall_mem_cons.1 hn
    have hshallow : p.schema.toJson.depth ≤ Json.maxDepth - 1 - 1 ↔ p.Shallow := by
      show p.schema.toJson.depth ≤ 127 - 1 - 1 ↔ p.schema.toJson.depth + 2 ≤ 127
      omega
    rw [List.map_cons, List.mapM_cons, ofSource?_spell hp hn, ih hps hns]
    -- one project that is too deep spoils the whole list
    by_cases hfirst : p.Shallow
    · rw [if_pos (hshallow.2 hfirst)]
      by_cases hrest : ∀ p ∈ ps, p.Shallow
      · rw [if_pos hrest, if_pos (List.forall_mem_cons.2 ⟨hfirst, hrest⟩)]
        rfl
      · rw [if_neg hrest, if_neg fun h => hrest (List.forall_mem_cons.1 h).2]
        rfl
    · rw [if_neg (mt hshallow.1 hfirst), if_neg fun h => hfirst (List.forall_mem_cons.1 h).1]
      rfl

/-- **A file with the text of legible projects.** -/
theorem listOfFile_listText (hps : ∀ p ∈ ps, p.Legible)
    (hn : ∀ p ∈ ps, ∀ n ∈ p.schema.toJson.numbers, n.Survives) :
    listOfFile (.text (listText ps))
      = if ∀ p ∈ ps, p.Shallow then .ok ps else .error .corrupt := by
  rw [listOfFile, allBlank_listText, listOfText?_listText hps hn, if_neg Bool.false_ne_true]
  by_cases h : ∀ p ∈ ps, p.Shallow
  · rw [if_pos h, if_pos h]
  · rw [if_neg h, if_neg h]

/-! ## Saving -/

/-- A file of which projects are listed is written again, with one more. -/
theorem save_file {c : FileContent} (hc : listOfFile c = .ok ps) :
    (Store.file c).save p = .ok (.file (.text (listText (ps ++ [p])))) := by
  unfold Store.save
  dsimp only
  rw [hc]

/-- **A file after a save, and memory after the same save.**

Saving succeeds in both.  The file then lists what memory lists if and only if the tree that was saved
comes back from the wire and every tree, old and new, can stand in the text of the file.  If the tree
comes back from the wire and one of them cannot stand there, nothing can be listed of the file.  The
values that the new tree keeps must have every key once, and numbers must survive printing and reading. -/
theorem list_save_iff {c : FileContent} (hc : listOfFile c = .ok ps) (htidy : p.schema.Tidy)
    (hsince : -(Json.Number.halfWord : Int) ≤ p.savedAt)
    (hbefore : p.savedAt < (Json.Number.halfWord : Int))
    (hn : ∀ q ∈ ps ++ [p], ∀ n ∈ q.schema.toJson.numbers, n.Survives) :
    ∃ text, (Store.file c).save p = .ok (.file (.text text)) ∧
      (Store.memory ps).save p = .ok (.memory (ps ++ [p])) ∧
      (Store.memory (ps ++ [p])).list = .ok (ps ++ [p]) ∧
      ((Store.file (.text text)).list = .ok (ps ++ [p]) ↔
        p.schema.WireStable ∧ ∀ q ∈ ps ++ [p], q.Shallow) ∧
      (p.schema.WireStable → (∃ q ∈ ps ++ [p], ¬ q.Shallow) →
        (Store.file (.text text)).list = .error .corrupt) := by
  have hlist : p.schema.WireStable → (Store.file (.text (listText (ps ++ [p])))).list
      = if ∀ q ∈ ps ++ [p], q.Shallow then .ok (ps ++ [p]) else .error .corrupt := by
    intro hstable
    refine listOfFile_listText (fun q hq => ?_) hn
    rcases List.mem_append.1 hq with hq | hq
    · exact legible_of_listOfFile hc q hq
    · rw [List.mem_singleton.1 hq]
      exact ⟨⟨Node.wireStable_iff.1 hstable, htidy⟩, hsince, hbefore⟩
  refine ⟨_, save_file hc, rfl, rfl, ?_, fun hstable hdeep => ?_⟩
  · constructor
    · intro h
      -- what is listed was read, so it comes back from the wire
      have hlisted : listOfFile (.text (listText (ps ++ [p]))) = .ok (ps ++ [p]) := h
      have hread : p.Legible :=
        legible_of_listOfFile hlisted p (List.mem_append_right _ (List.mem_singleton_self p))
      have hstable : p.schema.WireStable := Node.wireStable_iff.2 hread.schema.stable
      refine ⟨hstable, ?_⟩
      rw [hlist hstable] at h
      by_contra hdeep
      rw [if_neg hdeep] at h
      cases h
    · rintro ⟨hstable, hshallow⟩
      rw [hlist hstable, if_pos hshallow]
  · obtain ⟨q, hq, hdeep⟩ := hdeep
    rw [hlist hstable, if_neg fun h => hdeep (h q hq)]

/-! ## Trees that nest -/

/-- **A box in a box**, so many times. -/
def boxes : Nat → Node
  | 0 => .make "box" (.blank (some .container))
  | k + 1 => ⟨"box", .blank (some .container), some [boxes k], {}⟩

/-- A box adds two levels: itself and its list. -/
theorem depth_boxes : ∀ k : Nat, (boxes k).toJson.depth = 2 * k + 2
  | 0 => by decide
  | k + 1 => by
    show max 0 (max 0 (max 1 (max (max (boxes k).toJson.depth 0 + 1) 0))) + 1 = _
    rw [depth_boxes k]
    omega

/-- Boxes hold no numbers. -/
theorem numbers_boxes : ∀ k : Nat, (boxes k).toJson.numbers = []
  | 0 => by decide
  | k + 1 => by
    show (boxes k).toJson.numbers ++ [] ++ [] = []
    rw [numbers_boxes k]
    rfl

/-- Boxes are legible, however many. -/
theorem legible_boxes : ∀ k : Nat, (boxes k).Legible := by
  -- every box is legible by itself, whatever is in it
  have hshell : ∀ n : Node, n.props = .blank (some .container) → n.behavior = {} →
      n.children.isSome = true → n.shell.Stable ∧ n.shell.Tidy := by
    intro n hprops hbehavior hlist
    refine ⟨⟨?_, ?_, fun k hk => ?_⟩, ⟨?_, ?_⟩⟩
    · show n.props.Stable
      rw [hprops]
      exact Settings.stable_blank .container
    · show n.behavior.Stable
      rw [hbehavior]
      exact Behavior.stable_empty
    · replace hk : n.props.kind? = some k := hk
      rw [hprops] at hk
      rw [← Option.some.inj hk]
      exact hlist
    · show n.props.isTidy = true
      rw [hprops]
      rfl
    · show n.behavior.Tidy
      rw [hbehavior]
      exact Behavior.tidy_empty
  intro k
  induction k with
  | zero =>
    obtain ⟨hstable, htidy⟩ := hshell (boxes 0) rfl rfl rfl
    exact Node.legible_iff.2 ⟨hstable, htidy, fun c hc => absurd hc List.not_mem_nil⟩
  | succ k ih =>
    obtain ⟨hstable, htidy⟩ := hshell (boxes (k + 1)) rfl rfl rfl
    refine Node.legible_iff.2 ⟨hstable, htidy, fun c hc => ?_⟩
    rw [List.mem_singleton.1 hc]
    exact ih

/-- A project that holds boxes. -/
def boxed (id : String) (k : Nat) : Project := ⟨id, "boxes", boxes k, 0⟩

theorem legible_boxed (id : String) (k : Nat) : (boxed id k).Legible :=
  ⟨legible_boxes k, (by decide : -(Json.Number.halfWord : Int) ≤ 0),
    (by decide : (0 : Int) < Json.Number.halfWord)⟩

/-- Up to 61 of them can stand in a list of projects. -/
theorem shallow_boxed {id : String} {k : Nat} : (boxed id k).Shallow ↔ k ≤ 61 := by
  have hdepth : (boxed id k).schema.toJson.depth = 2 * k + 2 := depth_boxes k
  show _ + 2 ≤ 127 ↔ _
  rw [hdepth]
  omega

/-- No number is lost with them. -/
theorem survives_boxed (ks : List (String × Nat)) :
    ∀ q ∈ ks.map fun e => boxed e.1 e.2, ∀ n ∈ q.schema.toJson.numbers, n.Survives := by
  intro q hq n hn
  obtain ⟨e, -, rfl⟩ := List.mem_map.1 hq
  replace hn : n ∈ (boxes e.2).toJson.numbers := hn
  rw [numbers_boxes] at hn
  cases hn

/-- A file with one project. -/
def boxFile : FileContent := .text (listText [boxed "proj_a" 0])

/-- The file reads as one project. -/
theorem listOfFile_boxFile : listOfFile boxFile = .ok [boxed "proj_a" 0] := by
  have hlegible : ∀ q ∈ [boxed "proj_a" 0], q.Legible :=
    List.forall_mem_singleton.2 (legible_boxed _ _)
  unfold boxFile
  rw [listOfFile_listText hlegible (survives_boxed [("proj_a", 0)])]
  exact if_pos (List.forall_mem_singleton.2 (shallow_boxed.2 (by decide)))

/-- Sixty-one boxes around one are saved, and listed with what was saved before. -/
theorem list_save_boxes :
    ∃ text, (Store.file boxFile).save (boxed "proj_b" 61) = .ok (.file (.text text)) ∧
      (Store.file (.text text)).list = .ok [boxed "proj_a" 0, boxed "proj_b" 61] := by
  have hlegible := legible_boxed "proj_b" 61
  obtain ⟨text, hsave, -, -, hiff, -⟩ := list_save_iff listOfFile_boxFile hlegible.schema.tidy
    hlegible.since hlegible.before (survives_boxed [("proj_a", 0), ("proj_b", 61)])
  refine ⟨text, hsave, hiff.2 ⟨Node.wireStable_iff.2 hlegible.schema.stable, ?_⟩⟩
  exact List.forall_mem_cons.2 ⟨shallow_boxed.2 (by decide),
    List.forall_mem_singleton.2 (shallow_boxed.2 (by decide))⟩

/-- **One box more** is saved as well, and then nothing is listed, of what was saved before neither. -/
theorem not_list_save_boxes :
    listOfFile boxFile = .ok [boxed "proj_a" 0] ∧
    (boxed "proj_b" 62).schema.WireStable ∧
    ∃ text, (Store.file boxFile).save (boxed "proj_b" 62) = .ok (.file (.text text)) ∧
      (Store.file (.text text)).list = .error .corrupt ∧
      (Store.memory [boxed "proj_a" 0]).save (boxed "proj_b" 62)
        = .ok (.memory [boxed "proj_a" 0, boxed "proj_b" 62]) := by
  have hlegible := legible_boxed "proj_b" 62
  have hstable : (boxed "proj_b" 62).schema.WireStable :=
    Node.wireStable_iff.2 hlegible.schema.stable
  have hall : ∀ q ∈ [boxed "proj_a" 0, boxed "proj_b" 62], q.Legible :=
    List.forall_mem_cons.2 ⟨legible_boxed _ _, List.forall_mem_singleton.2 hlegible⟩
  have hlist := listOfFile_listText hall (survives_boxed [("proj_a", 0), ("proj_b", 62)])
  have hdeep : ¬ ∀ q ∈ [boxed "proj_a" 0, boxed "proj_b" 62], q.Shallow := by
    intro h
    exact absurd (shallow_boxed.1 (h _ (List.mem_cons_of_mem _ (List.mem_singleton_self _))))
      (by decide)
  rw [if_neg hdeep] at hlist
  exact ⟨listOfFile_boxFile, hstable, _, save_file listOfFile_boxFile, hlist, rfl⟩

/-- Saves, one after the other. -/
def Store.saveAll (s : Store) (ps : List Project) : Except StorageError Store :=
  ps.foldlM (fun s p => s.save p) s

/-- **A run of saves** of legible projects whose trees can stand in the text of a file: the file lists
what it listed before and then the projects, in order. -/
theorem list_saveAll {c : FileContent} {new : List Project} (hc : listOfFile c = .ok ps)
    (hps : ∀ q ∈ ps, q.Shallow) (hnew : ∀ q ∈ new, q.Legible ∧ q.Shallow)
    (hn : ∀ q ∈ ps ++ new, ∀ n ∈ q.schema.toJson.numbers, n.Survives) :
    ∃ after, (Store.file c).saveAll new = .ok after ∧ after.list = .ok (ps ++ new) := by
  induction new generalizing c ps with
  | nil =>
    refine ⟨_, rfl, ?_⟩
    rw [List.append_nil]
    exact hc
  | cons p new ih =>
    obtain ⟨⟨hp, hshallow⟩, hnew⟩ := List.forall_mem_cons.1 hnew
    have hall : ∀ q ∈ ps ++ [p], q.Shallow := by
      intro q hq
      rcases List.mem_append.1 hq with hq | hq
      · exact hps q hq
      · rw [List.mem_singleton.1 hq]
        exact hshallow
    have hsplit : ps ++ p :: new = ps ++ [p] ++ new := List.append_cons ..
    rw [hsplit] at hn ⊢
    have hbefore : ∀ q ∈ ps ++ [p], ∀ n ∈ q.schema.toJson.numbers, n.Survives :=
      fun q hq => hn q (List.mem_append_left _ hq)
    have hlegible : ∀ q ∈ ps ++ [p], q.Legible := by
      intro q hq
      rcases List.mem_append.1 hq with hq | hq
      · exact legible_of_listOfFile hc q hq
      · rw [List.mem_singleton.1 hq]
        exact hp
    have hlist := listOfFile_listText hlegible hbefore
    rw [if_pos hall] at hlist
    -- the list that was written is the one that the next save reads
    obtain ⟨after, hsaves, hafter⟩ := ih hlist hall hnew hn
    refine ⟨after, ?_, hafter⟩
    rw [Store.saveAll, List.foldlM_cons, save_file hc]
    exact hsaves

end PageBuilder.Project
