/-
  What a copy of a tree under new ids asks for, and what it keeps.

  Programs:       `noting` — a source that notes what it was asked about and what it answered;
                  `dealt` — a source that gives the ids of a list.
  Specification:  `Copied` — the source is asked once per node, in the order of the walk, with the
                  node as it was; its answers are the ids of the copy; all else is kept, position by
                  position, so the ids of the tree that was copied give that tree back.
                  `copied_of_relabel?` — every copy is such a copy, whatever the source.
  Crux:           notes are kept in the state of the source, so that what is known of every source
                  tells which questions were asked.
-/
import PageBuilder.Proofs.Node.Copy
import PageBuilder.Proofs.Node.Position

namespace PageBuilder.Node

/-! ## What is kept -/

/-- Ids have no part in where a node is. -/
theorem at?_unnamed (p : List Nat) (n : Node) : n.unnamed.at? p = (n.at? p).map unnamed := by
  induction p generalizing n with
  | nil => rfl
  | cons i p ih =>
    rw [at?, at?, childList_unnamed, List.getElem?_map]
    cases n.childList[i]? with
    | none => rfl
    | some c => exact ih c

/-- The body of the node at a position. -/
def bodyAt? (n : Node) (p : List Nat) : Option (Props × Bool × Behavior) :=
  (n.at? p).map fun k => k.shell.body

theorem bodyAt?_unnamed (p : List Nat) (n : Node) : n.unnamed.bodyAt? p = n.bodyAt? p := by
  have hbody : ∀ k : Node, k.unnamed.shell.body = k.shell.body := by
    intro k
    rw [unnamed_eq]
    simp [Shell.body, shell]
  rw [bodyAt?, at?_unnamed, Option.map_map]
  exact congrArg (Option.map · (n.at? p)) (funext hbody)

/-! ## Sources -/

section

variable {σ : Type}

/-- **A source that takes notes**: what it was asked about, with its answer. -/
def noting (next : Node → σ → Option (String × σ)) (n : Node) (s : σ × List (Node × String)) :
    Option (String × σ × List (Node × String)) :=
  (next n s.1).map fun (id, after) => (id, after, s.2 ++ [(n, id)])

/-- **A source that deals out a list**: its ids one after the other, whatever it is asked about. -/
def dealt (_ : Node) : List String → Option (String × List String)
  | [] => none
  | id :: ids => some (id, ids)

variable {next : Node → σ → Option (String × σ)} {ns : List Node} {s s' : σ} {ids : List String}

/-- The notes of a source that is asked about some nodes. -/
theorem answers?_noting (notes : List (Node × String)) (h : answers? next ns s = some (ids, s')) :
    answers? (noting next) ns (s, notes) = some (ids, s', notes ++ ns.zip ids) := by
  induction ns generalizing s ids notes with
  | nil =>
    obtain ⟨rfl, rfl⟩ := Prod.mk.inj (Option.some.inj h)
    rw [List.zip_nil_left, List.append_nil]
    rfl
  | cons n ns ih =>
    -- the notes grow at the end, so the induction is over any notes
    obtain ⟨id, mid, rest, hnext, hrest, rfl⟩ := answers?_cons_eq_some_iff.1 h
    refine answers?_cons_eq_some_iff.2 ⟨id, (mid, notes ++ [(n, id)]), rest, ?_, ?_, rfl⟩
    · rw [noting, hnext]
      rfl
    · rw [ih (notes ++ [(n, id)]) hrest, List.append_assoc]
      rfl

/-- Dealing out as many ids as there are questions. -/
theorem answers?_dealt (h : ids.length = ns.length) : answers? dealt ns ids = some (ids, []) := by
  induction ns generalizing ids with
  | nil => rw [List.length_eq_zero_iff.1 h, answers?]
  | cons n ns ih =>
    cases ids with
    | nil => exact absurd h.symm (Nat.succ_ne_zero ns.length)
    | cons id ids =>
      exact answers?_cons_eq_some_iff.2 ⟨id, ids, ids, rfl, ih (Nat.succ.inj h), rfl⟩

/-! ## Copies -/

/-- **A copy** `m` of a tree `n`, its ids drawn from a source that goes from one state to another. -/
structure Copied (next : Node → σ → Option (String × σ)) (n : Node) (s : σ) (m : Node) (s' : σ) :
    Prop where
  /-- If the source takes notes, these are the nodes of the tree as they were, in the order of the
  walk, each once, and beside them the ids of the copy. -/
  asked : relabel? (noting next) n (s, []) = some (m, s', n.nodes.zip m.ids)
  /-- The ids of the copy are the answers to one question per node, in the order of the walk. -/
  answered : answers? next n.nodes s = some (m.ids, s')
  /-- At every position stands a node with the same props and behavior, and with a list of children
  where there was one; nothing stands where nothing stood. -/
  kept : ∀ p, m.bodyAt? p = n.bodyAt? p
  /-- Answers that differ from each other give ids that do. -/
  distinct : ∀ ids t, answers? next n.nodes s = some (ids, t) → ids.Nodup → m.ids.Nodup
  /-- The copy under the ids of the tree is the tree. -/
  restored : relabel? dealt m n.ids = some (n, [])

/-- **A renamed tree is a copy**, whatever the source. -/
theorem copied_of_eq_some {n m : Node} (h : relabel? next n s = some (m, s')) :
    Copied next n s m s' := by
  obtain ⟨hshape, hids⟩ := relabel?_eq_some_iff.1 h
  constructor
  · exact relabel?_eq_some_iff.2 ⟨hshape, answers?_noting [] hids⟩
  · exact hids
  · intro p
    rw [← bodyAt?_unnamed, hshape, bodyAt?_unnamed]
  · intro ids t hanswers hnodup
    rw [hids] at hanswers
    obtain ⟨rfl, -⟩ := Prod.mk.inj (Option.some.inj hanswers)
    exact hnodup
  · -- the old ids answer for the copy, since it has as many nodes
    have hlength : n.ids.length = m.nodes.length := by
      rw [← length_ids_of_unnamed hshape, ids, List.length_map]
    exact relabel?_eq_some_iff.2 ⟨hshape.symm, answers?_dealt hlength⟩

/-- **Copies are relabeled, and nothing else.**

A source that always answers gives a copy of every tree; and whatever the source and the state it
starts in, every copy is `Copied`. -/
theorem copied_of_relabel? (next : Node → σ → Option (String × σ)) (n : Node) (s : σ) :
    ((∀ k t, (next k t).isSome) → ∃ m s', relabel? next n s = some (m, s')) ∧
    ∀ m s', relabel? next n s = some (m, s') → Copied next n s m s' :=
  ⟨fun h => exists_relabel? h n s, fun _ _ h => copied_of_eq_some h⟩

/-- A source that counts, and puts the number behind the id that it is asked about. -/
def numbered (n : Node) (k : Nat) : Option (String × Nat) := some (n.id ++ "-" ++ k.repr, k + 1)

/-- Two cards with one id, and a node of unrecognised kind with a list. -/
def twinBox : Node :=
  ⟨"box", .blank (some .container), some [
    ⟨"card", .blank (some .card), some [.make "note" (.blank (some .text))], {}⟩,
    ⟨"card", .unknown "Hologram" [("x", .null)], some [], { bind := some "share" }⟩], {}⟩

/-- The two cards have ids of their own in the copy. -/
theorem copied_of_relabel?_twinBox :
    (∀ k t, (numbered k t).isSome) ∧
    ∃ m, relabel? numbered twinBox 7 = some (m, 11) ∧
      m.ids = ["box-7", "card-8", "note-9", "card-10"] ∧ Copied numbered twinBox 7 m 11 := by
  have hanswers : ∀ k t, (numbered k t).isSome := fun _ _ => rfl
  obtain ⟨hexists, hcopied⟩ := copied_of_relabel? numbered twinBox 7
  obtain ⟨m, s', hm⟩ := hexists hanswers
  have hids : answers? numbered twinBox.nodes 7
      = some (["box-7", "card-8", "note-9", "card-10"], 11) := by
    decide +kernel
  have hcopy := hcopied m s' hm
  obtain ⟨heq, rfl⟩ := Prod.mk.inj (Option.some.inj (hids.symm.trans hcopy.answered))
  exact ⟨hanswers, m, hm, heq.symm, hcopy⟩

end

end PageBuilder.Node
