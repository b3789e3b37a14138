/-
  The selection of a session.

  The tree of a session is replaced from many sides: by edits, by a tree from elsewhere, by a saved
  project, by generated rows, and by the deletion of what is selected or of a node above it.

  Programs:       `Anchored` — the selected id occurs in the tree.
  Specification:  `anchored_of_run` — it does in every session of a room, after every step of any run.
                  So there always is a selected node, and additions under it are never refused for the
                  lack of it.
  Crux:           `anchored_withTree` — a tree that is put in place of the old one brings the
                  selection along, whatever tree it is and whatever was selected.
-/
import PageBuilder.Proofs.Intent.Outcome
import PageBuilder.Session.Room

namespace PageBuilder

/-! ## Sessions -/

namespace Session

/-- **The selected id occurs** in the tree. -/
def Anchored (s : Session) : Prop := s.selection ∈ s.tree.ids

variable {s : Session}

theorem anchored_start (tree : Node) (templates : Registry) : (start tree templates).Anchored :=
  Node.id_mem_ids tree

/-- Whatever tree is put in place, and whatever was selected before. -/
theorem anchored_withTree (s : Session) (t : Node) : (s.withTree t).Anchored := by
  show (if t.contains s.selection then s.selection else t.id) ∈ t.ids
  split
  · next hmem => exact Node.contains_iff.1 hmem
  · exact Node.id_mem_ids t

/-- A node is selected only if it is there. -/
theorem anchored_select (h : s.Anchored) (id : String) : (s.select id).Anchored := by
  unfold select
  split
  · next hmem => exact Node.contains_iff.1 hmem
  · exact h

/-- **One operation**, successful or not. -/
theorem anchored_perform (h : s.Anchored) (op : Op) : (s.perform op).session.Anchored := by
  -- whatever puts a tree in place sees to it that the selected node is in it
  cases op with
  | select id => exact anchored_select h id
  | setMode m => exact h
  | edit supply e =>
    rw [perform]
    split
    · exact h
    · exact anchored_withTree s _
  | adopt t => exact anchored_withTree s t
  | load id stored =>
    cases stored with
    | error e => exact h
    | ok p =>
      cases p with
      | none => exact h
      | some p => exact Node.id_mem_ids p.schema
  | fill id generated =>
    rw [perform]
    split
    · exact h
    · exact h
    · exact anchored_withTree s _

theorem exists_selectedNode? (h : s.Anchored) : ∃ n, s.selectedNode? = some n :=
  Option.isSome_iff_exists.1 (Node.contains_iff.2 h)

/-! ## Additions -/

/-- An edit that adds something under the selected node. -/
def Edit.adds : Edit → Bool
  | .add _ | .template _ => true
  | _ => false

/-- The intent behind an addition has the selection for its target, if that is a container. -/
theorem intent_of_adds {e : Edit} (h : s.Anchored) (he : e.adds = true) :
    s.intent e = .error (.edit (.notAContainer s.selection)) ∨
      ∃ i, s.intent e = .ok i ∧ i.adds = true ∧ i.target = s.selection := by
  obtain ⟨n, hn⟩ := exists_selectedNode? h
  -- what is added goes under the selected node, which is found, so it is a box or it is not
  have hcontainer : s.selectedContainer = .error (.edit (.notAContainer s.selection)) ∨
      s.selectedContainer = .ok s.selection := by
    unfold selectedContainer
    rw [hn]
    cases hcontainer : n.isContainer with
    | false => exact Or.inl (by simp [hcontainer])
    | true => exact Or.inr (by simp [hcontainer])
  cases e with
  | add k =>
    rcases hcontainer with hc | hc
    · exact Or.inl (by rw [intent, hc]; rfl)
    · exact Or.inr ⟨.addNode s.selection k, by rw [intent, hc]; rfl, rfl, rfl⟩
  | template t =>
    rcases hcontainer with hc | hc
    · exact Or.inl (by rw [intent, hc]; rfl)
    · exact Or.inr ⟨.addTemplate s.selection t, by rw [intent, hc]; rfl, rfl, rfl⟩
  | apply | deleteSelected => nomatch he

/-- **Additions** are never refused because the selected node is missing or nothing changes. -/
theorem addition_reply {e : Edit} {supply : Node.Supply} {err : EditError} (h : s.Anchored)
    (he : e.adds = true) (hreply : (s.perform (.edit supply e)).reply = .error (.edit err)) :
    err ≠ .notFound s.selection ∧ ∀ id, err ≠ .unchanged id := by
  rw [perform, edit] at hreply
  rcases intent_of_adds h he with hi | ⟨i, hi, hadds, htarget⟩
  · rw [hi] at hreply
    obtain rfl : .notAContainer s.selection = err :=
      SessionError.edit.inj (Except.error.inj hreply)
    exact ⟨nofun, nofun⟩
  · rw [hi] at hreply
    cases happly : i.apply s.templates supply s.tree with
    | error cause =>
      simp only [happly] at hreply
      obtain rfl : cause = err := SessionError.edit.inj (Except.error.inj hreply)
      rw [← htarget]
      exact Intent.addition_refused hadds (htarget ▸ Node.contains_iff.2 h) happly
    | ok a =>
      -- what was added has an id to tell of
      simp only [happly] at hreply
      obtain ⟨id, hid⟩ := Intent.exists_inserted hadds happly
      cases e with
      | add k =>
        rw [editReply, hid] at hreply
        nomatch hreply
      | template t =>
        rw [editReply, hid] at hreply
        nomatch hreply
      | apply | deleteSelected => nomatch he

/-! ## Deletions -/

/-- Where ids are distinct, a deleted one is gone. -/
theorem notMem_of_deleted {registry : Registry} {supply : Node.Supply} {tree result : Node}
    {id : String} (h : Intent.Effect registry supply tree result (.delete id))
    (htree : tree.ids.Nodup) : id ∉ result.ids := by
  cases h with
  | inserted p n node rest subtree => nomatch subtree
  | deleted _ l p n found before after =>
    have hid : id ∈ n.ids := (Node.mem_of_find? found).2 ▸ Node.id_mem_ids n
    rw [before, Node.ids_fill, List.flatMap_singleton] at htree
    obtain ⟨-, hbehind, hapart⟩ := List.nodup_append.1 htree
    rw [after, Node.ids_fill, List.flatMap_nil, List.nil_append, List.mem_append, not_or]
    constructor
    · intro hmem
      exact hapart id hmem id (List.mem_append_left _ hid) rfl
    · intro hmem
      exact (List.nodup_append.1 hbehind).2.2 id hid id hmem rfl

/-- **The deletion of the selected node** leaves the root selected. -/
theorem selection_deleteSelected {supply : Node.Supply} {reply : Reply}
    (htree : s.tree.ids.Nodup)
    (h : (s.perform (.edit supply .deleteSelected)).reply = .ok reply) :
    (s.perform (.edit supply .deleteSelected)).session.selection
      = (s.perform (.edit supply .deleteSelected)).session.tree.id := by
  rw [perform, edit, intent] at h ⊢
  dsimp only at h ⊢
  cases Intent.outcome s.templates supply s.tree (.delete s.selection) with
  | refused e reason edit result =>
    rw [result] at h
    nomatch h
  | accepted a reason edit result inserted effect =>
    -- the subtree took its root with it
    have hgone : a.tree.contains s.selection = false := by
      rw [Bool.eq_false_iff]
      intro hmem
      exact notMem_of_deleted effect htree (Node.contains_iff.1 hmem)
    rw [result]
    show (if a.tree.contains s.selection then s.selection else a.tree.id) = a.tree.id
    rw [hgone]
    rfl

end Session

/-! ## Rooms -/

namespace Room

variable {r : Room} {P : Session → Prop}

/-- Something that holds of every session in a room. -/
def AllSessions (P : Session → Prop) (r : Room) : Prop := ∀ e ∈ r.members, P e.2.session

/-- What holds of every session holds after an update that keeps it. -/
theorem allSessions_update {name : String} {f : Member → Member} (h : r.AllSessions P)
    (hf : ∀ m, P m.session → P (f m).session) : (r.update name f).AllSessions P := by
  intro e he
  rcases Entries.mem_modify he with he | ⟨m, hm, rfl⟩
  · exact h e he
  · exact hf m (h _ hm)

theorem allSessions_send (h : r.AllSessions P) (peer : Nat) (t : Node) :
    (r.send peer t).AllSessions P := by
  unfold send
  split
  · intro e he
    obtain ⟨d, hd, rfl⟩ := List.mem_map.1 he
    exact h d hd
  · exact h

theorem allSessions_attach {name : String} {peer : Nat} {after : Room} (h : r.AllSessions P)
    (hattach : r.attach name peer = .ok after) : after.AllSessions P := by
  unfold attach at hattach
  split at hattach
  · nomatch hattach
  · rw [← Except.ok.inj hattach]
    exact allSessions_update h fun _ hm => hm

/-- **What operations keep, steps keep**: what holds of a new session, and of a session after an
operation if it held before, holds of every session of a room after a step. -/
theorem allSessions_step (hstart : ∀ tree templates, P (.start tree templates))
    (hperform : ∀ s op, P s → P (Session.perform s op).session) (h : r.AllSessions P) (x : Step) :
    (r.step x).AllSessions P := by
  -- a session comes, does something, or takes over a tree; all other steps leave sessions alone
  cases x with
  | enter name tree templates =>
    intro e he
    rcases Entries.mem_put he with he | rfl
    · exact h e he
    · exact hstart tree templates
  | connect => exact h
  | attach name peer =>
    rw [step]
    split
    · exact h
    · split
      · next after hattach => exact allSessions_attach h hattach
      · exact h
  | detach name => exact allSessions_update h fun _ hm => hm
  | close peer =>
    rw [step]
    split <;> exact h
  | send peer t =>
    rw [step]
    split
    · exact h
    · exact allSessions_send h peer t
  | pull name =>
    refine allSessions_update h fun m hm => ?_
    split
    · exact hperform _ _ hm
    · exact hm
  | perform name op =>
    show (r.perform name op).1.AllSessions P
    unfold perform
    split
    · exact h
    · next m hm =>
      have hafter : (r.update name fun _ => { m with session := (m.session.perform op).session
          }).AllSessions P := by
        refine allSessions_update h fun _ _ => ?_
        exact hperform _ _ (h _ (Entries.mem_of_get? hm))
      dsimp only
      split
      · unfold announce
        split
        · exact hafter
        · exact allSessions_send hafter _ _
      · exact hafter

/-- **What every operation keeps holds in every room.** -/
theorem allSessions_run (hstart : ∀ tree templates, P (.start tree templates))
    (hperform : ∀ s op, P s → P (Session.perform s op).session) (h : r.AllSessions P)
    (steps : List Step) : (r.run steps).AllSessions P := by
  induction steps generalizing r with
  | nil => exact h
  | cons x steps ih => exact ih (allSessions_step hstart hperform h x)

/-- **In every session of a room, after any run**, the selected id occurs in the tree.  So there is a
selected node; additions under it are not refused because it is missing or because nothing changes; a
project that is loaded has its root selected, and so has, if ids are distinct, the tree that the
selected node was deleted from. -/
theorem anchored_of_run (steps : List Step) {name : String} {m : Member}
    (h : (empty.run steps).member? name = some m) :
    m.session.selection ∈ m.session.tree.ids ∧
    (∃ n, m.session.selectedNode? = some n) ∧
    (∀ supply (e : Session.Edit) err, e.adds = true →
      (m.session.perform (.edit supply e)).reply = .error (.edit err) →
        err ≠ .notFound m.session.selection ∧ ∀ id, err ≠ .unchanged id) ∧
    (∀ id (p : Project), let d := m.session.perform (.load id (.ok (some p)))
      d.session.tree = p.schema ∧ d.session.selection = d.session.tree.id) ∧
    (m.session.tree.ids.Nodup → ∀ supply reply,
      let d := m.session.perform (.edit supply .deleteSelected)
      d.reply = .ok reply → d.session.selection = d.session.tree.id) := by
  have hempty : empty.AllSessions Session.Anchored := nofun
  have hrun := allSessions_run Session.anchored_start (fun _ op hs => Session.anchored_perform hs op)
    hempty steps
  have hm : m.session.Anchored := hrun _ (Entries.mem_of_get? h)
  refine ⟨hm, Session.exists_selectedNode? hm, ?_, fun id p => ⟨rfl, rfl⟩, ?_⟩
  · intro supply e err he hreply
    exact Session.addition_reply hm he hreply
  · intro htree supply reply d hreply
    exact Session.selection_deleteSelected htree hreply

/-- A page over a card with a note on it. -/
def notePage : Node :=
  ⟨"root", .blank (some .container),
    some [⟨"card", .blank (some .card), some [.make "note" (.blank (some .text))], {}⟩], {}⟩

/-- The note is selected when the card over it goes, and then a tree without either is taken over. -/
def noteRun : List Step :=
  [.enter "a" notePage Builtin.registry, .connect, .attach "a" 1,
    .perform "a" (.select "note"), .perform "a" (.edit [] (.apply (.delete "card"))),
    .perform "a" (.edit ["1"] (.add (some .button))),
    .perform "a" (.adopt (.make "page" (.blank (some .card))))]

/-- The law where the selected note goes with the card over it. -/
theorem anchored_of_run_notePage :
    ∃ m, (empty.run noteRun).member? "a" = some m ∧ m.session.selection = "page" ∧
      m.session.selection ∈ m.session.tree.ids ∧ ∃ n, m.session.selectedNode? = some n := by
  have hpage : ((empty.run noteRun).member? "a").map (·.session.selection) = some "page" := by
    decide +kernel
  obtain ⟨m, hm, hselection⟩ := Option.map_eq_some_iff.1 hpage
  obtain ⟨hmem, hnode, -⟩ := anchored_of_run noteRun hm
  exact ⟨m, hm, hselection, hmem, hnode⟩

end Room
end PageBuilder
