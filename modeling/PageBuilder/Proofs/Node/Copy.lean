/-
  Copies of a tree under generated ids.

  Programs:       `answers?` — what a source gives when it is asked once per node of a list, in order;
                  `unnamed` — a tree less its ids.
  Specification:  `relabel?_eq_some_iff` — a copy is the tree that was copied, less its ids, under the
                  answers for its nodes in the order of the walk;
                  `freshCopy?_spec` — the ids of a fresh copy differ from each other and from those
                  taken, and are made of the prefixes of the nodes and of suffixes of the supply;
                  `exists_freshCopy?` — a supply that is long enough suffices.
  Crux:           `Issued` — what one part of the copying adds to the ids that are taken.  Parts that
                  follow each other compose, since the second avoids all that the first has issued.
-/
import Mathlib.Data.List.Basic
import PageBuilder.Node.Relabel
import PageBuilder.Proofs.Node.Place

namespace PageBuilder.Node

/-! ## Trees less their ids -/

mutual
/-- **A tree less its ids**: shape, props and behavior stay. -/
def unnamed : Node → Node
  | ⟨_, p, none, b⟩ => ⟨"", p, none, b⟩
  | ⟨_, p, some cs, b⟩ => ⟨"", p, some (unnamedAll cs), b⟩

def unnamedAll : List Node → List Node
  | [] => []
  | n :: ns => unnamed n :: unnamedAll ns
end

theorem unnamedAll_eq (ns : List Node) : unnamedAll ns = ns.map unnamed := by
  induction ns with
  | nil => rfl
  | cons n ns ih => rw [unnamedAll, ih, List.map_cons]

theorem unnamed_eq (n : Node) :
    n.unnamed = ⟨"", n.props, n.children.map (·.map unnamed), n.behavior⟩ := by
  obtain ⟨i, p, cs, b⟩ := n
  cases cs with
  | none => rfl
  | some cs => rw [unnamed, unnamedAll_eq]; rfl

theorem childList_unnamed (n : Node) : n.unnamed.childList = n.childList.map unnamed := by
  rw [unnamed_eq]
  cases hcs : n.children <;> simp [childList, hcs]

/-- A node apart from its id and from what is under it. -/
def Shell.body (s : Shell) : Props × Bool × Behavior := (s.props, s.hasList, s.behavior)

/-- The nodes of a tree apart from their ids. -/
def bodies (n : Node) : List (Props × Bool × Behavior) := n.shells.map Shell.body

theorem bodies_cons (n : Node) : n.bodies = n.shell.body :: n.childList.flatMap bodies := by
  unfold bodies
  rw [shells_cons, List.map_cons, List.map_flatMap]

/-- Without its ids a tree has the bodies it had. -/
theorem bodies_unnamed (n : Node) : n.unnamed.bodies = n.bodies := by
  induction n using induct with
  | step n ih =>
    have hunder : n.unnamed.childList.flatMap bodies = n.childList.flatMap bodies := by
      rw [childList_unnamed, List.flatMap_map]
      exact List.flatMap_congr ih
    rw [bodies_cons, bodies_cons, hunder, unnamed_eq]
    simp [Shell.body, shell]

theorem bodies_of_unnamed {m n : Node} (h : m.unnamed = n.unnamed) : m.bodies = n.bodies := by
  rw [← bodies_unnamed, h, bodies_unnamed]

/-- What depends on bodies only holds of every node of two trees, or of neither. -/
theorem forall_shells_of_bodies {P : Shell → Prop} (hP : ∀ s t, s.body = t.body → P t → P s)
    {m n : Node} (h : m.bodies = n.bodies) (hn : ∀ s ∈ n.shells, P s) : ∀ s ∈ m.shells, P s := by
  intro s hs
  have hbody : s.body ∈ n.bodies := by
    rw [← h]
    exact List.mem_map_of_mem hs
  obtain ⟨t, ht, heq⟩ := List.mem_map.1 hbody
  exact hP s t heq.symm (hn t ht)

/-- Trees that differ in their ids only have as many nodes. -/
theorem length_ids_of_unnamed {m n : Node} (h : m.unnamed = n.unnamed) :
    m.ids.length = n.ids.length := by
  have hlength : ∀ t : Node, t.ids.length = t.bodies.length := by
    intro t
    rw [ids_eq, bodies, List.length_map, List.length_map]
  rw [hlength, hlength, bodies_of_unnamed h]

/-- Lists of trees that agree but for their ids, and in their ids as well, are equal. -/
theorem eq_of_unnamedAll {ms : List Node}
    (ih : ∀ m ∈ ms, ∀ n, m.unnamed = n.unnamed → m.ids = n.ids → m = n) :
    ∀ ns : List Node, ms.map unnamed = ns.map unnamed → ms.flatMap ids = ns.flatMap ids →
      ms = ns := by
  induction ms with
  | nil =>
    intro ns h _
    exact (List.map_eq_nil_iff.1 h.symm).symm
  | cons m ms ihs =>
    intro ns h hids
    cases ns with
    | nil => nomatch h
    | cons n ns =>
      obtain ⟨hhead, htail⟩ := List.cons.inj h
      obtain ⟨hm, hms⟩ := List.forall_mem_cons.1 ih
      -- both heads have as many nodes, so the ids split at the same place
      obtain ⟨hi, his⟩ := List.append_inj hids (length_ids_of_unnamed hhead)
      rw [hm n hhead hi, ihs hms ns htail his]

/-- **A tree is what it is less its ids**, and its ids. -/
theorem eq_of_unnamed : ∀ m n : Node, m.unnamed = n.unnamed → m.ids = n.ids → m = n := by
  refine induct fun m ih n h hids => ?_
  rw [ids_cons, ids_cons] at hids
  obtain ⟨hid, hunder⟩ := List.cons.inj hids
  rw [unnamed_eq, unnamed_eq] at h
  obtain ⟨i, p, cs, b⟩ := m
  obtain ⟨j, q, ds, c⟩ := n
  obtain ⟨-, hp, hchildren, hb⟩ := Node.mk.inj h
  obtain rfl : i = j := hid
  obtain rfl : p = q := hp
  obtain rfl : b = c := hb
  -- a list of children, or that there is none, is kept without the ids
  cases cs with
  | none =>
    cases ds with
    | none => rfl
    | some ds => nomatch hchildren
  | some cs =>
    cases ds with
    | none => nomatch hchildren
    | some ds =>
      have hlists : cs = ds := eq_of_unnamedAll ih ds (Option.some.inj hchildren) hunder
      rw [hlists]

/-! ## Copies -/

section Relabel

variable {σ : Type} {next : Node → σ → Option (String × σ)}

/-- **The answers** of a source that is asked for an id once per node, in order. -/
def answers? (next : Node → σ → Option (String × σ)) :
    List Node → σ → Option (List String × σ)
  | [], s => some ([], s)
  | n :: ns, s =>
    match next n s with
    | none => none
    | some (id, s) => (answers? next ns s).map fun (ids, s) => (id :: ids, s)

/-- The first node is answered first, and the others from the state that is left. -/
theorem answers?_cons_eq_some_iff {n : Node} {ns : List Node} {s s' : σ} {ids : List String} :
    answers? next (n :: ns) s = some (ids, s') ↔ ∃ id mid rest, next n s = some (id, mid) ∧
      answers? next ns mid = some (rest, s') ∧ ids = id :: rest := by
  rw [answers?]
  constructor
  · intro h
    -- the first node is asked for, and only then the others
    split at h
    · nomatch h
    · next id mid hnext =>
      obtain ⟨⟨rest, last⟩, hrest, heq⟩ := Option.map_eq_some_iff.1 h
      obtain ⟨rfl, rfl⟩ := Prod.mk.inj heq
      exact ⟨id, mid, rest, hnext, hrest, rfl⟩
  · rintro ⟨id, mid, rest, hnext, hrest, rfl⟩
    rw [hnext]
    dsimp only
    rw [hrest]
    rfl

/-- The nodes of an appended list are answered from the state that the first part leaves. -/
theorem answers?_append_eq_some_iff {ms ns : List Node} {s s' : σ} {ids : List String} :
    answers? next (ms ++ ns) s = some (ids, s') ↔ ∃ first mid second,
      answers? next ms s = some (first, mid) ∧ answers? next ns mid = some (second, s') ∧
      ids = first ++ second := by
  induction ms generalizing s ids with
  | nil =>
    constructor
    · intro h
      exact ⟨[], s, ids, rfl, h, rfl⟩
    · rintro ⟨first, mid, second, hfirst, hsecond, rfl⟩
      obtain ⟨rfl, rfl⟩ := Prod.mk.inj (Option.some.inj hfirst)
      exact hsecond
  | cons m ms ih =>
    -- the answer to the first node moves between the head and the front part
    rw [List.cons_append, answers?_cons_eq_some_iff]
    constructor
    · rintro ⟨id, mid, rest, hnext, hrest, rfl⟩
      obtain ⟨first, last, second, hfirst, hsecond, rfl⟩ := ih.1 hrest
      refine ⟨id :: first, last, second, ?_, hsecond, rfl⟩
      exact answers?_cons_eq_some_iff.2 ⟨id, mid, first, hnext, hfirst, rfl⟩
    · rintro ⟨first, last, second, hfirst, hsecond, rfl⟩
      obtain ⟨id, mid, rest, hnext, hrest, rfl⟩ := answers?_cons_eq_some_iff.1 hfirst
      exact ⟨id, mid, rest ++ second, hnext, ih.2 ⟨rest, last, second, hrest, hsecond, rfl⟩, rfl⟩

/-- A copied node: one id is drawn for it, and then its children are copied. -/
theorem relabel?_cases {n m : Node} {s s' : σ} (h : relabel? next n s = some (m, s')) :
    ∃ id mid, next n s = some (id, mid) ∧
      ((n.children = none ∧ m = { n with id := id } ∧ s' = mid) ∨
        ∃ cs ds, n.children = some cs ∧ relabelAll? next cs mid = some (ds, s') ∧
          m = { n with id := id, children := some ds }) := by
  obtain ⟨i, p, cs, b⟩ := n
  -- a node without a list stays without one, however it is renamed
  cases cs with
  | none =>
    rw [relabel?] at h
    obtain ⟨⟨id, mid⟩, hnext, heq⟩ := Option.map_eq_some_iff.1 h
    obtain ⟨rfl, rfl⟩ := Prod.mk.inj heq
    exact ⟨id, mid, hnext, Or.inl ⟨rfl, rfl, rfl⟩⟩
  | some cs =>
    rw [relabel?] at h
    split at h
    · nomatch h
    · next id mid hnext =>
      obtain ⟨⟨ds, rest⟩, hall, heq⟩ := Option.map_eq_some_iff.1 h
      obtain ⟨rfl, rfl⟩ := Prod.mk.inj heq
      exact ⟨id, mid, hnext, Or.inr ⟨cs, ds, rfl, hall, rfl⟩⟩

/-- A list of trees is renamed one by one. -/
theorem relabelAll?_cons {n : Node} {ns ms : List Node} {s s' : σ}
    (h : relabelAll? next (n :: ns) s = some (ms, s')) :
    ∃ m mid rest, relabel? next n s = some (m, mid) ∧ relabelAll? next ns mid = some (rest, s') ∧
      ms = m :: rest := by
  rw [relabelAll?] at h
  split at h
  · nomatch h
  · next m mid hhead =>
    obtain ⟨⟨rest, last⟩, hall, heq⟩ := Option.map_eq_some_iff.1 h
    obtain ⟨rfl, rfl⟩ := Prod.mk.inj heq
    exact ⟨m, mid, rest, hhead, hall, rfl⟩

/-- What is true of each renamed tree is true of the list: it is the same but for the ids, and these
answer its nodes in order. -/
theorem spec_of_relabelAll? {ns : List Node}
    (ih : ∀ n ∈ ns, ∀ m s s', relabel? next n s = some (m, s') →
      m.unnamed = n.unnamed ∧ answers? next n.nodes s = some (m.ids, s')) :
    ∀ ms s s', relabelAll? next ns s = some (ms, s') → ms.map unnamed = ns.map unnamed ∧
      answers? next (ns.flatMap nodes) s = some (ms.flatMap ids, s') := by
  induction ns with
  | nil =>
    intro ms s s' h
    obtain ⟨rfl, rfl⟩ := Prod.mk.inj (Option.some.inj h)
    exact ⟨rfl, rfl⟩
  | cons n ns ihs =>
    intro ms s s' h
    -- the state goes from the first tree on to the others
    obtain ⟨m, mid, rest, hhead, hall, rfl⟩ := relabelAll?_cons h
    obtain ⟨hn, hns⟩ := List.forall_mem_cons.1 ih
    obtain ⟨hshape, hids⟩ := hn m s mid hhead
    obtain ⟨hshapes, hrest⟩ := ihs hns rest mid s' hall
    rw [List.map_cons, List.map_cons, hshape, hshapes, List.flatMap_cons, List.flatMap_cons]
    exact ⟨rfl, answers?_append_eq_some_iff.2 ⟨m.ids, mid, rest.flatMap ids, hids, hrest, rfl⟩⟩

/-- A copy keeps all but the ids, and has the answers for the nodes in the order of the walk. -/
theorem spec_of_relabel? : ∀ n m s s', relabel? next n s = some (m, s') →
    m.unnamed = n.unnamed ∧ answers? next n.nodes s = some (m.ids, s') := by
  refine induct fun n ih m s s' h => ?_
  rw [nodes_cons, answers?_cons_eq_some_iff]
  -- the node itself is answered before its children, as in the walk
  obtain ⟨id, mid, hnext, ⟨hcs, rfl, rfl⟩ | ⟨cs, ds, hcs, hall, rfl⟩⟩ := relabel?_cases h
  · have hlist : n.childList = [] := congrArg (·.getD []) hcs
    have hcopied : ({ n with id := id } : Node).childList = [] := hlist
    refine ⟨?_, id, s', [], hnext, ?_, ?_⟩
    · rw [unnamed_eq, unnamed_eq]
    · rw [hlist]
      rfl
    · rw [ids_cons, hcopied]
      rfl
  · have hlist : n.childList = cs := congrArg (·.getD []) hcs
    rw [hlist] at ih
    obtain ⟨hshapes, hrest⟩ := spec_of_relabelAll? ih ds mid s' hall
    refine ⟨?_, id, mid, ds.flatMap ids, hnext, ?_, ?_⟩
    · rw [unnamed_eq, unnamed_eq, hcs, Option.map_some, Option.map_some, hshapes]
    · rwa [hlist]
    · rw [ids_cons]
      rfl

/-- A list of trees can be renamed as soon as its nodes, in order, have answers. -/
theorem exists_relabelAll? {ns : List Node}
    (ih : ∀ n ∈ ns, ∀ s ids s', answers? next n.nodes s = some (ids, s') →
      ∃ m, relabel? next n s = some (m, s')) :
    ∀ s ids s', answers? next (ns.flatMap nodes) s = some (ids, s') →
      ∃ ms, relabelAll? next ns s = some (ms, s') := by
  induction ns with
  | nil =>
    intro s ids s' h
    obtain ⟨-, rfl⟩ := Prod.mk.inj (Option.some.inj h)
    exact ⟨[], rfl⟩
  | cons n ns ihs =>
    intro s ids s' h
    rw [List.flatMap_cons] at h
    -- the answers split where the nodes of the first tree end
    obtain ⟨first, mid, second, hfirst, hsecond, -⟩ := answers?_append_eq_some_iff.1 h
    obtain ⟨hn, hns⟩ := List.forall_mem_cons.1 ih
    obtain ⟨m, hm⟩ := hn s first mid hfirst
    obtain ⟨ms, hms⟩ := ihs hns mid second s' hsecond
    refine ⟨m :: ms, ?_⟩
    rw [relabelAll?, hm]
    dsimp only
    rw [hms]
    rfl

/-- **There is a copy** if the source answers for all nodes. -/
theorem exists_relabel?_of_answers? : ∀ n s ids s',
    answers? next n.nodes s = some (ids, s') → ∃ m, relabel? next n s = some (m, s') := by
  refine induct fun n ih s ids s' h => ?_
  rw [nodes_cons, answers?_cons_eq_some_iff] at h
  obtain ⟨id, mid, rest, hnext, hrest, -⟩ := h
  obtain ⟨i, p, cs, b⟩ := n
  -- without children nothing is left to answer
  cases cs with
  | none =>
    obtain ⟨-, rfl⟩ := Prod.mk.inj (Option.some.inj hrest)
    refine ⟨⟨id, p, none, b⟩, ?_⟩
    rw [relabel?, hnext]
    rfl
  | some cs =>
    obtain ⟨ds, hds⟩ : ∃ ds, relabelAll? next cs mid = some (ds, s') :=
      exists_relabelAll? ih mid rest s' hrest
    refine ⟨⟨id, p, some ds, b⟩, ?_⟩
    rw [relabel?, hnext]
    dsimp only
    rw [hds]
    rfl

/-- **The copies**: what is copied is the tree less its ids, and the ids are the answers of the source,
asked once per node in the order of the walk, with the node as it was. -/
theorem relabel?_eq_some_iff {n m : Node} {s s' : σ} :
    relabel? next n s = some (m, s') ↔
      m.unnamed = n.unnamed ∧ answers? next n.nodes s = some (m.ids, s') := by
  constructor
  · exact spec_of_relabel? n m s s'
  · rintro ⟨hshape, hids⟩
    obtain ⟨d, hd⟩ := exists_relabel?_of_answers? n s m.ids s' hids
    obtain ⟨hcopy, hanswers⟩ := spec_of_relabel? n d s s' hd
    rw [hids] at hanswers
    obtain ⟨heq, -⟩ := Prod.mk.inj (Option.some.inj hanswers)
    rw [hd, eq_of_unnamed m d (hshape.trans hcopy.symm) heq]

theorem exists_answers? (h : ∀ n s, (next n s).isSome) (ns : List Node) :
    ∀ s, ∃ ids s', answers? next ns s = some (ids, s') := by
  induction ns with
  | nil => exact fun s => ⟨[], s, rfl⟩
  | cons n ns ih =>
    intro s
    obtain ⟨⟨id, mid⟩, hid⟩ := Option.isSome_iff_exists.1 (h n s)
    obtain ⟨ids, s', hids⟩ := ih mid
    exact ⟨id :: ids, s', answers?_cons_eq_some_iff.2 ⟨id, mid, ids, hid, hids, rfl⟩⟩

/-- There is a copy if the source answers whenever it is asked. -/
theorem exists_relabel? (h : ∀ n s, (next n s).isSome) (n : Node) (s : σ) :
    ∃ m s', relabel? next n s = some (m, s') := by
  obtain ⟨ids, s', hids⟩ := exists_answers? h n.nodes s
  obtain ⟨m, hm⟩ := exists_relabel?_of_answers? n s ids s' hids
  exact ⟨m, s', hm⟩

end Relabel

/-! ## What is issued -/

/-- Some ids are issued where others were taken before, and more are afterwards. -/
structure Issued (taken issued after : List String) : Prop where
  nodup : issued.Nodup
  fresh : ∀ id ∈ issued, id ∉ taken
  after : ∀ id, id ∈ after ↔ id ∈ issued ∨ id ∈ taken

theorem Issued.nil (taken : List String) : Issued taken [] taken := by
  refine ⟨List.nodup_nil, nofun, fun id => ?_⟩
  simp

/-- **One part after the other**. -/
theorem Issued.append {taken first mid second after : List String} (h1 : Issued taken first mid)
    (h2 : Issued mid second after) : Issued taken (first ++ second) after := by
  constructor
  · refine List.nodup_append.2 ⟨h1.nodup, h2.nodup, ?_⟩
    -- an id of both parts is taken when the second one starts
    rintro x hx y hy rfl
    exact h2.fresh x hy ((h1.after x).2 (Or.inl hx))
  · intro x hx
    rcases List.mem_append.1 hx with hx | hx
    · exact h1.fresh x hx
    · intro htaken
      exact h2.fresh x hx ((h1.after x).2 (Or.inr htaken))
  · intro x
    rw [h2.after, h1.after, List.mem_append, or_left_comm, or_assoc]

/-! ## Drawing one id -/

/-- A suffix tells ids of one prefix apart. -/
theorem generated_inj {idPrefix s t : String} :
    generated idPrefix s = generated idPrefix t ↔ s = t := by
  unfold generated
  exact String.append_right_inj _

/-- **One id is drawn**: the suffixes in front of its own all give ids that are taken. -/
theorem drawFresh?_eq_some {idPrefix id : String} {taken : List String} {supply rest : Supply}
    (h : drawFresh? idPrefix taken supply = some (id, rest)) :
    id ∉ taken ∧ ∃ skipped s, supply = skipped ++ s :: rest ∧ id = generated idPrefix s ∧
      ∀ u ∈ skipped, generated idPrefix u ∈ taken := by
  induction supply with
  | nil => nomatch h
  | cons s supply ih =>
    rw [drawFresh?] at h
    -- a suffix whose id is taken is skipped for good
    split at h
    · next htaken =>
      obtain ⟨hid, skipped, t, rfl, heq, hskipped⟩ := ih h
      refine ⟨hid, s :: skipped, t, rfl, heq, List.forall_mem_cons.2 ⟨?_, hskipped⟩⟩
      exact List.contains_iff_mem.1 htaken
    · next hnew =>
      obtain ⟨rfl, rfl⟩ := Prod.mk.inj (Option.some.inj h)
      refine ⟨?_, [], s, rfl, rfl, nofun⟩
      intro hmem
      exact hnew (List.contains_iff_mem.2 hmem)

/-- No id is drawn only where all suffixes give ids that are taken. -/
theorem taken_of_drawFresh?_eq_none {idPrefix : String} {taken : List String} {supply : Supply}
    (h : drawFresh? idPrefix taken supply = none) : ∀ s ∈ supply, generated idPrefix s ∈ taken := by
  induction supply with
  | nil => nofun
  | cons s supply ih =>
    rw [drawFresh?] at h
    split at h
    · next htaken => exact List.forall_mem_cons.2 ⟨List.contains_iff_mem.1 htaken, ih h⟩
    · nomatch h

/-- Distinct suffixes that all give ids that are taken are no more than these. -/
theorem length_le_of_taken {idPrefix : String} {taken : List String} {suffixes : List String}
    (hnodup : suffixes.Nodup) (h : ∀ s ∈ suffixes, generated idPrefix s ∈ taken) :
    suffixes.length ≤ taken.length := by
  have hids : (suffixes.map (generated idPrefix)).Nodup :=
    List.pairwise_map.2 (hnodup.imp fun hne heq => hne (generated_inj.1 heq))
  have hsubset : suffixes.map (generated idPrefix) ⊆ taken := by
    intro id hid
    obtain ⟨s, hs, rfl⟩ := List.mem_map.1 hid
    exact h s hs
  simpa using hids.length_le_of_subset hsubset

/-- **An id can be drawn** from more distinct suffixes than there are ids taken, and not many go. -/
theorem exists_drawFresh? (idPrefix : String) {taken : List String} {supply : Supply}
    (hnodup : supply.Nodup) (hlength : taken.length < supply.length) :
    ∃ id rest, drawFresh? idPrefix taken supply = some (id, rest) ∧ rest.Nodup ∧
      supply.length ≤ taken.length + 1 + rest.length := by
  -- were every suffix taken, there would be more ids taken than there are
  cases h : drawFresh? idPrefix taken supply with
  | none =>
    have := length_le_of_taken hnodup (taken_of_drawFresh?_eq_none h)
    omega
  | some r =>
    obtain ⟨id, rest⟩ := r
    obtain ⟨-, skipped, s, rfl, -, hskipped⟩ := drawFresh?_eq_some h
    obtain ⟨hfirst, hsecond, -⟩ := List.nodup_append.1 hnodup
    have hskip := length_le_of_taken hfirst hskipped
    refine ⟨id, rest, rfl, (List.nodup_cons.1 hsecond).2, ?_⟩
    rw [List.length_append, List.length_cons]
    omega

/-- The id of one node. -/
theorem issued_of_drawDistinct? {n : Node} {s s' : List String × Supply} {id : String}
    (h : drawDistinct? n s = some (id, s')) : Issued s.1 [id] s'.1 := by
  obtain ⟨⟨d, rest⟩, hdraw, heq⟩ := Option.map_eq_some_iff.1 h
  obtain ⟨rfl, rfl⟩ := Prod.mk.inj heq
  refine ⟨List.pairwise_singleton _ d, ?_, fun x => ?_⟩
  · intro x hx
    rw [List.mem_singleton.1 hx]
    exact (drawFresh?_eq_some hdraw).1
  · rw [List.mem_cons, List.mem_singleton]

/-! ## Fresh copies -/

/-- The ids of nodes, drawn one after the other. -/
theorem issued_of_answers? {ns : List Node} {s s' : List String × Supply} {ids : List String}
    (h : answers? drawDistinct? ns s = some (ids, s')) : Issued s.1 ids s'.1 := by
  induction ns generalizing s ids with
  | nil =>
    obtain ⟨rfl, rfl⟩ := Prod.mk.inj (Option.some.inj h)
    exact .nil s.1
  | cons n ns ih =>
    obtain ⟨id, mid, rest, hid, hrest, rfl⟩ := answers?_cons_eq_some_iff.1 h
    exact (issued_of_drawDistinct? hid).append (ih hrest)

/-- **What drawn ids are made of**: the prefixes of the nodes, and suffixes of the supply, in order. -/
theorem suffixes_of_answers? {ns : List Node} {taken after ids : List String} {supply rest : Supply}
    (h : answers? drawDistinct? ns (taken, supply) = some (ids, after, rest)) :
    ∃ drawn suffixes, supply = drawn ++ rest ∧ suffixes.Sublist drawn ∧
      suffixes.length = ns.length ∧
      ids = List.zipWith (fun n s => generated n.idPrefix s) ns suffixes := by
  induction ns generalizing taken supply ids with
  | nil =>
    obtain ⟨rfl, heq⟩ := Prod.mk.inj (Option.some.inj h)
    obtain ⟨-, rfl⟩ := Prod.mk.inj heq
    exact ⟨[], [], rfl, .slnil, rfl, rfl⟩
  | cons n ns ih =>
    obtain ⟨id, ⟨mid, left⟩, others, hid, hothers, rfl⟩ := answers?_cons_eq_some_iff.1 h
    obtain ⟨⟨d, left'⟩, hdraw, heq⟩ := Option.map_eq_some_iff.1 hid
    obtain ⟨rfl, hleft⟩ := Prod.mk.inj heq
    obtain ⟨-, rfl⟩ := Prod.mk.inj hleft
    obtain ⟨-, skipped, s, rfl, rfl, -⟩ := drawFresh?_eq_some hdraw
    obtain ⟨drawn, suffixes, rfl, hsublist, hlength, rfl⟩ := ih hothers
    -- what was skipped for this node is drawn, but not used
    refine ⟨skipped ++ s :: drawn, s :: suffixes, ?_, ?_, ?_, rfl⟩
    · rw [List.append_assoc, List.cons_append]
    · exact (hsublist.cons_cons s).trans (List.sublist_append_right skipped _)
    · rw [List.length_cons, List.length_cons, hlength]

/-- **Enough suffixes**: each node may have to pass over as many as there are ids taken by then. -/
theorem exists_answers?_drawDistinct? {ns : List Node} {taken : List String} {supply : Supply}
    (hnodup : supply.Nodup) (hlength : ns.length * (taken.length + ns.length) ≤ supply.length) :
    ∃ r, answers? drawDistinct? ns (taken, supply) = some r := by
  induction ns generalizing taken supply with
  | nil => exact ⟨([], taken, supply), rfl⟩
  | cons n ns ih =>
    rw [List.length_cons, Nat.add_mul, Nat.one_mul] at hlength
    obtain ⟨id, rest, hdraw, hrest, hleft⟩ :=
      exists_drawFresh? n.idPrefix hnodup (show taken.length < supply.length by omega)
    have hid : drawDistinct? n (taken, supply) = some (id, id :: taken, rest) := by
      unfold drawDistinct?
      rw [hdraw]
      rfl
    -- one answer takes at most as many suffixes as ids are taken, and takes one more id
    have henough : ns.length * ((id :: taken).length + ns.length) ≤ rest.length := by
      have hsame : (id :: taken).length + ns.length = taken.length + (ns.length + 1) := by
        rw [List.length_cons]
        omega
      rw [hsame]
      omega
    obtain ⟨⟨ids, s'⟩, hids⟩ := ih hrest henough
    exact ⟨_, answers?_cons_eq_some_iff.2 ⟨id, _, ids, hid, hids, rfl⟩⟩

/-- A fresh copy is the node that was copied under the ids that are drawn for its nodes. -/
theorem freshCopy?_eq_some {taken : List String} {n m : Node} {supply rest : Supply}
    (h : freshCopy? taken n supply = some (m, rest)) :
    m.unnamed = n.unnamed ∧
      ∃ after, answers? drawDistinct? n.nodes (taken, supply) = some (m.ids, after, rest) := by
  obtain ⟨⟨d, after, rest'⟩, hcopy, heq⟩ := Option.map_eq_some_iff.1 h
  obtain ⟨rfl, rfl⟩ := Prod.mk.inj heq
  obtain ⟨hshape, hids⟩ := relabel?_eq_some_iff.1 hcopy
  exact ⟨hshape, after, hids⟩

/-- **Fresh copies**: the ids of one differ from each other and from those taken, and apart from its
ids it is the node that was copied. -/
theorem freshCopy?_spec {taken : List String} {n m : Node} {supply rest : Supply}
    (h : freshCopy? taken n supply = some (m, rest)) :
    m.ids.Nodup ∧ (∀ id ∈ m.ids, id ∉ taken) ∧ m.bodies = n.bodies := by
  obtain ⟨hshape, after, hids⟩ := freshCopy?_eq_some h
  have hissued := issued_of_answers? hids
  exact ⟨hissued.nodup, hissued.fresh, bodies_of_unnamed hshape⟩

/-- **There is a fresh copy** if the supply is long enough and has no suffix twice. -/
theorem exists_freshCopy? {taken : List String} {n : Node} {supply : Supply}
    (hnodup : supply.Nodup)
    (hlength : n.nodes.length * (taken.length + n.nodes.length) ≤ supply.length) :
    ∃ m rest, freshCopy? taken n supply = some (m, rest) := by
  obtain ⟨⟨ids, after, rest⟩, hids⟩ := exists_answers?_drawDistinct? hnodup hlength
  obtain ⟨m, hm⟩ := exists_relabel?_of_answers? n (taken, supply) ids (after, rest) hids
  refine ⟨m, rest, ?_⟩
  unfold freshCopy?
  rw [hm]
  rfl

end PageBuilder.Node
