/-
  What an export depends on.

  Programs:       `Node.printed` — a tree less all that an export passes over.
  Specification:  `document_congr` — two trees that differ in nothing else are exported as the same
                  document; so is a copy of a tree under other ids, where no group of choices is
                  named by its id.
  Crux:           `componentLines_printed` — one component at a time; the boxes around it hand
                  nothing down.
-/
import PageBuilder.Export.Document
import PageBuilder.Proofs.Export.Block
import PageBuilder.Proofs.Node.Copy

namespace PageBuilder

/-! ## What is printed -/

/-- Kinds whose props are written as attributes, whatever their keys. -/
def Kind.spreads : Kind → Bool
  | .input | .textarea | .image => true
  | _ => false

/-- **Props less what an export passes over**: a kind has its modelled fields printed, and its other
fields only where all of them are attributes; a type that names no kind has everything printed. -/
def Props.printed : Props → Props
  | .known k s => .known k (if k.spreads then s else { s with others := [] })
  | .unknown t fs => .unknown t fs

namespace Node

/-- The id of a node as far as it is printed: it names the choices of a radio group. -/
def printedId (id : String) (p : Props) : String := if p.kind? = some .radioGroup then id else ""

mutual
/-- **A tree less what an export passes over**: the shape, the types and the printed props stay. -/
def printed : Node → Node
  | ⟨i, p, none, _⟩ => ⟨printedId i p, p.printed, none, {}⟩
  | ⟨i, p, some cs, _⟩ => ⟨printedId i p, p.printed, some (printedAll cs), {}⟩

def printedAll : List Node → List Node
  | [] => []
  | n :: ns => printed n :: printedAll ns
end

theorem printedAll_eq (ns : List Node) : printedAll ns = ns.map printed := by
  induction ns with
  | nil => rfl
  | cons n ns ih => rw [printedAll, ih, List.map_cons]

theorem printed_eq (n : Node) :
    n.printed = ⟨printedId n.id n.props, n.props.printed, n.children.map (·.map printed), {}⟩ := by
  obtain ⟨i, p, cs, b⟩ := n
  cases cs with
  | none => rfl
  | some cs => rw [printed, printedAll_eq]; rfl

theorem childList_printed (n : Node) : n.printed.childList = n.childList.map printed := by
  rw [printed_eq]
  cases hcs : n.children <;> simp [childList, hcs]

end Node

namespace Export

open Markup Node

variable {d : Dialect}

/-! ## Blocks -/

/-- **A component** shows what is printed of its id and its props. -/
theorem componentLines_printed (d : Dialect) (id : String) (k : Kind) (s : Settings k) :
    componentLines d (printedId id (.known k s)) k (if k.spreads then s else { s with others := [] })
      = componentLines d id k s := by
  cases k <;> rfl

/-- A block is written from what is printed of its node. -/
theorem block_printed (d : Dialect) (id : String) (p : Props) (inner : List Line) :
    block d (printedId id p) p.printed inner = block d id p inner := by
  cases p with
  | unknown t fs => rfl
  | known k s =>
    unfold block Props.printed
    dsimp only
    rw [componentLines_printed]
    cases k.spreads <;> rfl

/-- **A tree is exported** as what is printed of it. -/
theorem lines_printed (d : Dialect) (n : Node) : lines d n.printed = lines d n := by
  induction n using Node.induct with
  | step n ih =>
    have hunder : n.printed.childList.flatMap (lines d) = n.childList.flatMap (lines d) := by
      rw [childList_printed, List.flatMap_map]
      exact List.flatMap_congr ih
    rw [lines_eq, lines_eq d n, hunder, printed_eq]
    exact block_printed d n.id n.props _

/-- A document is written from what is printed of its tree. -/
theorem document_printed (d : Dialect) (o : Options) (n : Node) :
    document d o n.printed = document d o n := by
  unfold document fragmentText fragment
  rw [lines_printed]

/-! ## Copies -/

section Copies

variable {σ : Type} {next : Node → σ → Option (String × σ)}

/-- Renaming a list changes nothing printed if it changes nothing of its trees. -/
theorem printed_of_relabelAll? {ns : List Node}
    (ih : ∀ n ∈ ns, ∀ m s s', relabel? next n s = some (m, s') → m.printed = n.printed) :
    ∀ ms s s', relabelAll? next ns s = some (ms, s') → ms.map printed = ns.map printed := by
  induction ns with
  | nil =>
    intro ms s s' h
    obtain ⟨rfl, -⟩ := Prod.mk.inj (Option.some.inj h)
    rfl
  | cons n ns ihs =>
    intro ms s s' h
    obtain ⟨m, mid, rest, hhead, hall, rfl⟩ := relabelAll?_cons h
    rw [List.map_cons, List.map_cons, ih n List.mem_cons_self m s mid hhead,
      ihs (fun c hc => ih c (List.mem_cons_of_mem _ hc)) rest mid s' hall]

/-- **A copy is printed** as what was copied, where no id is printed. -/
theorem printed_of_relabel? {n : Node} (hradio : ∀ c ∈ n.nodes, c.kind? ≠ some .radioGroup) :
    ∀ m s s', relabel? next n s = some (m, s') → m.printed = n.printed := by
  induction n using Node.induct with
  | step n ih =>
    intro m s s' h
    rw [nodes_cons, List.forall_mem_cons, List.forall_mem_flatMap] at hradio
    have hid : ∀ id, printedId id n.props = "" := fun id => if_neg hradio.1
    obtain ⟨id, mid, -, ⟨hcs, rfl, -⟩ | ⟨cs, ds, hcs, hall, rfl⟩⟩ := relabel?_cases h
    · rw [printed_eq, printed_eq n, hid, hid]
    · have hlist : n.childList = cs := congrArg (·.getD []) hcs
      rw [hlist] at ih hradio
      have hunder : ds.map printed = cs.map printed :=
        printed_of_relabelAll? (fun c hc => ih c hc (hradio.2 c hc)) ds mid s' hall
      rw [printed_eq, printed_eq n, hid, hid, hcs]
      simp only [Option.map_some, hunder]

end Copies

/-- **What an export depends on.**

Two trees of which the same is printed, that is of one shape, with the same types, the same modelled
props, the same other props in the same order where they are attributes, and the same ids where they
name choices, are exported as the same document.  So is a copy of a tree without radio groups, whatever
its ids are; and there is a copy if every node is answered. -/
theorem document_congr (d : Dialect) (o : Options) :
    (∀ m n : Node, m.printed = n.printed → document d o m = document d o n) ∧
    ∀ {σ : Type} (next : Node → σ → Option (String × σ)) (n : Node) (s : σ),
      (∀ c ∈ n.nodes, c.kind? ≠ some .radioGroup) →
      (∀ m s', relabel? next n s = some (m, s') → document d o m = document d o n) ∧
      ((∀ c t, (next c t).isSome) →
        ∃ m s', relabel? next n s = some (m, s') ∧ document d o m = document d o n) := by
  -- both documents are that of the printed tree
  have hprinted : ∀ m n : Node, m.printed = n.printed → document d o m = document d o n := by
    intro m n h
    rw [← document_printed, h, document_printed]
  refine ⟨hprinted, fun next n s hradio => ⟨?_, ?_⟩⟩
  · intro m s' h
    exact hprinted m n (printed_of_relabel? hradio m s s' h)
  · intro hnext
    obtain ⟨m, s', h⟩ := exists_relabel? hnext n s
    exact ⟨m, s', h, hprinted m n (printed_of_relabel? hradio m s s' h)⟩

/-- A survey: a box to type in with a field of its own, choices, and a button that does something. -/
def surveyPage : Node :=
  ⟨"survey", .blank (some .card), some [
    .make "name" (.known .input ⟨(some "Name", none, none, ()), none, [("data-track", .string "name")]⟩),
    .make "size" (.known .radioGroup ⟨(some ["S", "M"], ()), none, []⟩),
    ⟨"go", .known .button ⟨(some "Go", none, ()), none, [("note", .null)]⟩, none,
      { tooltip := some "Send", onClick := some (.toggle (some "sent")) }⟩], {}⟩

/-- The survey under other ids, that of its choices aside, with a button that does nothing. -/
def surveyDraft : Node :=
  ⟨"draft", .blank (some .card), some [
    ⟨"field", .known .input ⟨(some "Name", none, none, ()), none, [("data-track", .string "name")]⟩,
      none, { bind := some "name" }⟩,
    .make "size" (.known .radioGroup ⟨(some ["S", "M"], ()), none, [("columns", .bool true)]⟩),
    .make "button" (.known .button ⟨(some "Go", none, ()), none, []⟩)], {}⟩

/-- A source of ids that counts. -/
def tally (_ : Node) (k : Nat) : Option (String × Nat) :=
  some (String.ofList (List.replicate k 'i'), k + 1)

/-- Both surveys are one document, and so are a tag in a card and its copy. -/
theorem document_congr_surveyPage :
    surveyPage ≠ surveyDraft ∧ surveyPage.printed = surveyDraft.printed ∧
    document .vue {} surveyPage = document .vue {} surveyDraft ∧
    let card : Node := ⟨"card", .blank (some .card), some [.make "tag" (.blank (some .tag))], {}⟩
    let copy : Node := ⟨"i", .blank (some .card), some [.make "ii" (.blank (some .tag))], {}⟩
    (∀ c ∈ card.nodes, c.kind? ≠ some .radioGroup) ∧ relabel? tally card 1 = some (copy, 3) ∧
    document .react {} copy = document .react {} card ∧ (∀ c k, (tally c k).isSome) ∧
    ∃ m s, relabel? tally card 1 = some (m, s) ∧ document .react {} m = document .react {} card := by
  have hprinted : surveyPage.printed = surveyDraft.printed := by decide +kernel
  refine ⟨by decide +kernel, hprinted, (document_congr .vue {}).1 _ _ hprinted, ?_⟩
  intro card copy
  have hradio : ∀ c ∈ card.nodes, c.kind? ≠ some .radioGroup := by decide +kernel
  have hcopy : relabel? tally card 1 = some (copy, 3) := rfl
  have htally : ∀ c k, (tally c k).isSome := fun _ _ => rfl
  obtain ⟨hsame, hexists⟩ := (document_congr .react {}).2 tally card 1 hradio
  exact ⟨hradio, hcopy, hsame copy 3 hcopy, htally, hexists htally⟩

end Export
end PageBuilder
