/-
  What is drawn of a page in use.

  Program:        `View.render?`.
  Specification:  `View.Pictures` — how a node is drawn, with `NumberShown` and `TextShown` for what a
                  bound bar and a bound statistic show; `render?_interactive` — the nodes that are
                  drawn are those that may show and are under such nodes only; `hidden_absent_iff` —
                  just when nothing is drawn that is hidden.
  Crux:           `drawn_render?_eq` — in either mode, the faces of a drawing are those of the lineages
                  that the pass draws, in the order of the walk.
-/
import Mathlib.Data.List.Forall2
import Mathlib.Data.List.Nodup
import PageBuilder.Proofs.Node.Lineage
import PageBuilder.View.Render

namespace PageBuilder

/-- Whether variables let a node show: it depends on none of them, or on one that counts as true. -/
def Variables.allow (vs : Variables) (b : Behavior) : Bool := b.visibleIf.all vs.truthy

theorem Kind.isCheckable_iff {k : Kind} : k.isCheckable = true ↔ k = .toggle ∨ k = .checkbox := by
  cases k <;> decide

namespace Props

/-- A bound value does not change the kind. -/
theorem kind?_withBound (value : Option Json) (props : Props) :
    (props.withBound value).kind? = props.kind? := by
  cases props with
  | unknown t fs => rfl
  | known k s => cases k <;> rfl

/-- Only progress bars and statistics have a field for a bound value. -/
theorem withBound_eq_self (value : Option Json) {props : Props}
    (hprogress : props.kind? ≠ some .progress) (hstatistic : props.kind? ≠ some .statistic) :
    props.withBound value = props := by
  cases props with
  | unknown t fs => rfl
  | known k s =>
    cases k with
    | progress => exact absurd rfl hprogress
    | statistic => exact absurd rfl hstatistic
    | _ => rfl

end Props

namespace Pass

variable {p : Pass} {b : Behavior}

theorem hides_interactive (h : p.mode = .interactive) : p.hides b = !(p.vars.allow b) := by
  unfold hides isInteractive Variables.allow
  rw [h]
  cases b.visibleIf <;> rfl

theorem hides_design (h : p.mode = .design) : p.hides b = false := by
  unfold hides isInteractive
  rw [h]
  rfl

/-- On a page in use a node is bound to the variable that it names. -/
theorem boundVariable?_interactive (h : p.mode = .interactive) : p.boundVariable? b = b.bind := by
  unfold boundVariable? isInteractive
  rw [h]
  rfl

/-- Whether what is under a node may be drawn. -/
def opens (p : Pass) (n : Node) : Bool := n.kind?.isSome && !(p.hides n.behavior)

/-- **Whether a node is drawn**: all that it is under is, and of recognised kind, and the node itself
is not hidden; one of unrecognised kind never is. -/
def draws (p : Pass) (l : Node.Lineage) : Bool :=
  (l.node.kind?.isNone || !(p.hides l.node.behavior)) && l.above.all p.opens

/-- The face of a node that is drawn. -/
def face (p : Pass) (n : Node) : Face :=
  match n.props with
  | .unknown t fs =>
    { View.plainFace p n.id (.unknown t fs) n.behavior with
      placeholder := some (View.placeholderText t) }
  | .known k s =>
    { View.plainFace p n.id (p.boundProps n.behavior (.known k s)) n.behavior with
      bound := (p.boundVariable? n.behavior).map (p.boundValue k)
      interactions := p.interactions n.behavior
      list := (p.boundProps n.behavior (.known k s)).listView? }

end Pass

namespace View

variable {p : Pass} {n : Node}

/-- The faces of a drawing; none if nothing is drawn. -/
def drawn (v : Option View) : List Face := v.toList.flatMap faces

theorem facesAll_eq (vs : List View) : facesAll vs = vs.flatMap faces := by
  induction vs with
  | nil => rfl
  | cons v vs ih => rw [facesAll, ih, List.flatMap_cons]

/-- Nodes are drawn one by one. -/
theorem renderAll_eq (p : Pass) (ns : List Node) :
    renderAll p ns = ns.flatMap fun n => (render? p n).toList := by
  induction ns with
  | nil => rfl
  | cons n ns ih => rw [renderAll, ih, List.flatMap_cons]

theorem render?_eq (p : Pass) (n : Node) :
    render? p n = display? p n.id n.props n.behavior (renderAll p n.childList) := by
  obtain ⟨id, props, cs, b⟩ := n
  cases cs <;> rfl

/-- How a node is displayed: with what is under it if the pass opens it, and with nothing else. -/
theorem display?_eq (p : Pass) (n : Node) (vs : List View) :
    display? p n.id n.props n.behavior vs =
      if n.kind?.isNone || !(p.hides n.behavior) then some ⟨p.face n, if p.opens n then vs else []⟩
      else none := by
  unfold Pass.face Pass.opens Node.kind?
  cases n.props with
  | unknown t fs => rfl
  | known k s =>
    rw [display?]
    cases p.hides n.behavior <;> rfl

theorem drawn_some (f : Face) (vs : List View) :
    drawn (some ⟨f, vs⟩) = f :: vs.flatMap faces := by
  unfold drawn
  rw [Option.toList_some, List.flatMap_singleton, faces, facesAll_eq]

/-- What is drawn of a node and of what is under it. -/
theorem drawn_render? (p : Pass) (n : Node) :
    drawn (render? p n) =
      if n.kind?.isNone || !(p.hides n.behavior) then
        p.face n :: (if p.opens n then n.childList.flatMap fun c => drawn (render? p c) else [])
      else [] := by
  rw [render?_eq, renderAll_eq, display?_eq]
  split
  · rw [drawn_some]
    split
    · rw [List.flatMap_assoc]
      rfl
    · rfl
  · rfl

/-- Nothing is drawn just when the root is not. -/
theorem render?_eq_none_iff : render? p n = none ↔ p.draws ⟨n, []⟩ = false := by
  rw [render?_eq, display?_eq, Pass.draws, List.all_nil, Bool.and_true]
  split
  · next h => simp [h]
  · next h => simp [h]

/-- What stands under a node that is not open is not drawn. -/
theorem draws_eq_false {l : Node.Lineage} {a : Node} (ha : a ∈ l.above) (h : p.opens a = false) :
    p.draws l = false := by
  have hall : l.above.all p.opens = false := List.all_eq_false.2 ⟨a, ha, by simp [h]⟩
  rw [Pass.draws, hall, Bool.and_false]

/-- The faces of a subtree that is under open nodes. -/
theorem drawn_render?_under (p : Pass) {above : List Node} (n : Node) (h : above.all p.opens = true) :
    drawn (render? p n)
      = ((Node.lineagesUnder above n).filter p.draws).map fun l => p.face l.node := by
  induction n using Node.induct generalizing above with
  | step n ih =>
    rw [drawn_render?, Node.lineagesUnder_eq, List.filter_cons, Pass.draws, h, Bool.and_true]
    cases hopens : p.opens n with
    | true =>
      have hshown : (n.kind?.isNone || !(p.hides n.behavior)) = true := by
        unfold Pass.opens at hopens
        rw [(Bool.and_eq_true_iff.1 hopens).2, Bool.or_true]
      rw [if_pos hshown, if_pos rfl, if_pos hshown, List.map_cons, List.filter_flatMap, List.map_flatMap]
      refine congrArg _ (List.flatMap_congr fun c hc => ih c hc ?_)
      rw [List.all_cons, hopens, h]
      rfl
    | false =>
      -- no node under this one is drawn, since this one is above it
      have hnone : (n.childList.flatMap (Node.lineagesUnder (n :: above))).filter p.draws = [] := by
        refine List.filter_eq_nil_iff.2 fun l hl => ?_
        obtain ⟨c, -, hl⟩ := List.mem_flatMap.1 hl
        have hmem : n ∈ l.above := (Node.suffix_of_mem_lineagesUnder hl).subset List.mem_cons_self
        rw [draws_eq_false hmem hopens]
        exact Bool.false_ne_true
      rw [hnone, if_neg Bool.false_ne_true]
      split <;> rfl

/-- **The faces of a drawing**: those of the lineages that the pass draws, in the order of the walk. -/
theorem drawn_render?_eq (p : Pass) (n : Node) :
    drawn (render? p n) = (n.lineages.filter p.draws).map fun l => p.face l.node :=
  drawn_render?_under p n rfl

theorem id_face (p : Pass) (n : Node) : (p.face n).id = n.id := by
  unfold Pass.face
  cases n.props <;> rfl

/-- **The ids that are drawn**: those of the nodes that the pass draws. -/
theorem ids_drawn (p : Pass) (n : Node) :
    (drawn (render? p n)).map (·.id) = (n.lineages.filter p.draws).map (·.node.id) := by
  rw [drawn_render?_eq p n, List.map_map]
  exact List.map_congr_left fun l _ => id_face p l.node

/-! ## What a variable shows as -/

/-- **The number that a progress bar shows** for what its variable holds, if anything: a number, or
the one that a text spells, blanks at either end aside.  All else shows no number. -/
inductive NumberShown : Option Json → Option Binary64 → Prop
  | whole (i : Int) : NumberShown (some (.number (.whole i))) (some (.ofInt i))
  | binary (x : Binary64) : NumberShown (some (.number (.binary x))) (some x)
  | numeral {s : String} {x : Binary64} (spells : Binary64.ofText? (Text.trim s.toList) = some x) :
      NumberShown (some (.string s)) (some x)
  | words {s : String} (fails : Binary64.ofText? (Text.trim s.toList) = none) :
      NumberShown (some (.string s)) none
  | other {v : Option Json} (noNumber : ∀ n, v ≠ some (.number n))
      (noText : ∀ s, v ≠ some (.string s)) : NumberShown v none

/-- **The text that a statistic shows** for what its variable holds, if anything: a text as it is,
nothing for `null` and for a variable that is not there, and any other value as JSON. -/
inductive TextShown : Option Json → String → Prop
  | missing : TextShown none ""
  | null : TextShown (some .null) ""
  | text (s : String) : TextShown (some (.string s)) s
  | json {v : Json} (notNull : v ≠ .null) (noText : ∀ s, v ≠ .string s) :
      TextShown (some v) v.compact

theorem numberShown_progressOf (v : Option Json) : NumberShown v (v.bind Props.progressOf) := by
  cases v with
  | none => exact .other nofun nofun
  | some v =>
    rw [Option.bind_some]
    cases v with
    | number n =>
      cases n with
      | whole i => exact .whole i
      | binary x => exact .binary x
    | string s =>
      rw [Props.progressOf]
      cases h : Binary64.ofText? (Text.trim s.toList) with
      | none => exact .words h
      | some x => exact .numeral h
    | null | bool | array | object => exact .other nofun nofun

theorem textShown_display (v : Option Json) : TextShown v ((v.map Json.display).getD "") := by
  cases v with
  | none => exact .missing
  | some v =>
    rw [Option.map_some, Option.getD_some]
    cases v with
    | null => exact .null
    | string s => exact .text s
    | bool | number | array | object => exact .json nofun nofun

/-! ## A page in use -/

/-- **How a node is drawn** on a page in use.  What a variable holds goes over the value of a bound
progress bar or statistic; all other props are as they are. -/
structure Pictures (vs : Variables) (selection : Option String) (n : Node) (f : Face) : Prop where
  id : f.id = n.id
  kind : f.props.kind? = n.kind?
  tooltip : f.tooltip = n.behavior.tooltip
  animation : f.animation = n.behavior.animation
  selected : f.selected = true ↔ selection = some n.id
  props : n.behavior.bind = none ∨ (n.kind? ≠ some .progress ∧ n.kind? ≠ some .statistic) →
    f.props = n.props
  progress : ∀ name s, n.behavior.bind = some name → n.props = .known .progress s →
    ∃ x, NumberShown (Entries.get? vs name) x ∧ f.props = .known .progress { s with cells := (x, ()) }
  statistic : ∀ name s, n.behavior.bind = some name → n.props = .known .statistic s →
    ∃ text, TextShown (Entries.get? vs name) text ∧
      f.props = .known .statistic { s with cells := (s.cells.1, some text, s.cells.2.2) }
  bound : ∀ k name, n.kind? = some k → n.behavior.bind = some name →
    f.bound = some (if k = .toggle ∨ k = .checkbox then .checked (vs.truthy name)
      else .value ((Entries.get? vs name).getD (.string "")))
  unbound : n.kind? = none ∨ n.behavior.bind = none → f.bound = none

section

variable {id t : String} {fs : Json.Fields} {k : Kind} {s : Settings k} {cs : Option (List Node)}
  {b : Behavior}

/-- A node of unrecognised kind has the props that it has. -/
theorem pictures_unknown :
    Pictures p.vars p.selection ⟨id, .unknown t fs, cs, b⟩ (p.face ⟨id, .unknown t fs, cs, b⟩) where
  id := rfl
  kind := rfl
  tooltip := rfl
  animation := rfl
  selected := beq_iff_eq
  props _ := rfl
  progress _ _ _ hknown := absurd hknown Props.noConfusion
  statistic _ _ _ hknown := absurd hknown Props.noConfusion
  bound _ _ hkind _ := absurd hkind.symm (Option.some_ne_none _)
  unbound _ := rfl

/-- The props and the value of a node of recognised kind. -/
theorem face_known (h : p.mode = .interactive) (id : String) (s : Settings k)
    (cs : Option (List Node)) (b : Behavior) :
    (p.face ⟨id, .known k s, cs, b⟩).props
      = b.bind.elim (.known k s) (fun name => (Props.known k s).withBound (Entries.get? p.vars name)) ∧
    (p.face ⟨id, .known k s, cs, b⟩).bound = b.bind.map (p.boundValue k) := by
  constructor
  · show p.boundProps b (.known k s) = _
    rw [Pass.boundProps, Pass.boundVariable?_interactive h]
    cases b.bind <;> rfl
  · show (p.boundVariable? b).map (p.boundValue k) = _
    rw [Pass.boundVariable?_interactive h]

theorem pictures_unbound (h : p.mode = .interactive) (hbind : b.bind = none) :
    Pictures p.vars p.selection ⟨id, .known k s, cs, b⟩ (p.face ⟨id, .known k s, cs, b⟩) := by
  obtain ⟨hprops, hbound⟩ := face_known h id s cs b
  rw [hbind] at hprops hbound
  have hfree : ∀ name, b.bind ≠ some name := fun name hname =>
    Option.some_ne_none name (hname.symm.trans hbind)
  exact {
    id := rfl
    kind := congrArg Props.kind? hprops
    tooltip := rfl
    animation := rfl
    selected := beq_iff_eq
    props := fun _ => hprops
    progress := fun name _ hname => absurd hname (hfree name)
    statistic := fun name _ hname => absurd hname (hfree name)
    bound := fun _ name _ hname => absurd hname (hfree name)
    unbound := fun _ => hbound }

/-- **A bound node**: the value goes over the props of two kinds, and checks two others. -/
theorem pictures_bound (h : p.mode = .interactive) {name : String} (hbind : b.bind = some name) :
    Pictures p.vars p.selection ⟨id, .known k s, cs, b⟩ (p.face ⟨id, .known k s, cs, b⟩) := by
  obtain ⟨hprops, hbound⟩ := face_known h id s cs b
  rw [hbind] at hprops hbound
  refine {
    id := rfl
    kind := ?_
    tooltip := rfl
    animation := rfl
    selected := beq_iff_eq
    props := ?_
    progress := ?_
    statistic := ?_
    bound := ?_
    unbound := ?_ }
  · rw [hprops]
    exact Props.kind?_withBound _ _
  · rintro (hnone | ⟨hprogress, hstatistic⟩)
    · exact absurd (hbind.symm.trans hnone) (Option.some_ne_none name)
    · rw [hprops]
      exact Props.withBound_eq_self _ hprogress hstatistic
  · -- the variable is the one that the node is bound to
    rintro x t hx ht
    obtain rfl : name = x := Option.some.inj (hbind.symm.trans hx)
    refine ⟨_, numberShown_progressOf _, ?_⟩
    rw [hprops, show Props.known k s = .known .progress t from ht]
    rfl
  · rintro x t hx ht
    obtain rfl : name = x := Option.some.inj (hbind.symm.trans hx)
    refine ⟨_, textShown_display _, ?_⟩
    rw [hprops, show Props.known k s = .known .statistic t from ht]
    rfl
  · rintro l x hl hx
    obtain rfl : name = x := Option.some.inj (hbind.symm.trans hx)
    obtain rfl : k = l := Option.some.inj hl
    rw [hbound, Option.map_some, Pass.boundValue]
    simp only [Kind.isCheckable_iff]
  · rintro (hnone | hnone)
    · exact absurd hnone (Option.some_ne_none k)
    · exact absurd (hbind.symm.trans hnone) (Option.some_ne_none name)

end

/-- **A node is drawn as it is pictured**, on a page in use. -/
theorem pictures_face (h : p.mode = .interactive) (n : Node) :
    Pictures p.vars p.selection n (p.face n) := by
  obtain ⟨id, props, cs, b⟩ := n
  cases props with
  | unknown t fs => exact pictures_unknown
  | known k s =>
    cases hbind : b.bind with
    | none => exact pictures_unbound h hbind
    | some name => exact pictures_bound h hbind

end View

/-- **Whether a node shows** on a page in use: the variables let it, and all that it is under is of
recognised kind and shows as well. -/
def Node.Lineage.shows (vs : Variables) (l : Node.Lineage) : Bool :=
  vs.allow l.node.behavior && l.above.all fun a => a.kind?.isSome && vs.allow a.behavior

namespace View

section

variable {vs : Variables} {selection : Option String}

theorem opens_interactive (a : Node) :
    (Pass.mk .interactive vs selection).opens a = (a.kind?.isSome && vs.allow a.behavior) := by
  rw [Pass.opens, Pass.hides_interactive rfl, Bool.not_not]

/-- A node of unrecognised kind that depends on no variable is drawn like any other. -/
theorem draws_eq_shows {l : Node.Lineage}
    (h : l.node.kind? = none → l.node.behavior.visibleIf = none) :
    (Pass.mk .interactive vs selection).draws l = l.shows vs := by
  have hallow : (l.node.kind?.isNone || vs.allow l.node.behavior) = vs.allow l.node.behavior := by
    cases hkind : l.node.kind? with
    | none =>
      rw [Variables.allow, h hkind]
      rfl
    | some k => rfl
  rw [Pass.draws, Pass.hides_interactive rfl, Bool.not_not, hallow, funext opens_interactive]
  rfl

end

/-- **A page in use** of which no node of unrecognised kind depends on a variable.

The nodes that are drawn are those that show, in the order of the walk; each is drawn as `Pictures`
says; and nothing is drawn just when the variables hide the root. -/
theorem render?_interactive (vs : Variables) (selection : Option String) {n : Node}
    (h : ∀ m ∈ n.nodes, m.kind? = none → m.behavior.visibleIf = none) :
    let v := render? ⟨.interactive, vs, selection⟩ n
    let shown := (n.lineages.filter (·.shows vs)).map (·.node)
    (drawn v).map (·.id) = shown.map (·.id) ∧
    List.Forall₂ (Pictures vs selection) shown (drawn v) ∧
    (v = none ↔ vs.allow n.behavior = false) := by
  have hdraws : n.lineages.filter (Pass.mk .interactive vs selection).draws
      = n.lineages.filter (·.shows vs) := by
    refine List.filter_congr fun l hl => draws_eq_shows (h l.node ?_)
    rw [← Node.map_node_lineages]
    exact List.mem_map_of_mem hl
  have hface := pictures_face (p := ⟨.interactive, vs, selection⟩) rfl
  refine ⟨?_, ?_, ?_⟩
  · rw [ids_drawn, hdraws, List.map_map]
    rfl
  · have hdrawn := drawn_render?_eq ⟨.interactive, vs, selection⟩ n
    rw [hdrawn, hdraws, List.forall₂_map_left_iff, List.forall₂_map_right_iff, List.forall₂_same]
    exact fun l _ => hface l.node
  · have hroot : n ∈ n.nodes := by
      rw [Node.nodes_cons]
      exact List.mem_cons_self
    rw [render?_eq_none_iff, draws_eq_shows (h n hroot), Node.Lineage.shows, List.all_nil,
      Bool.and_true]

/-- A progress bar that is bound to a variable. -/
def shareBar : Node := ⟨"bar", .palette (some .progress), none, { bind := some "share" }⟩

/-- A statistic that is bound to a variable. -/
def visitsTile : Node := ⟨"tile", .palette (some .statistic), none, { bind := some "visits" }⟩

/-- A page with a panel that shows while a variable counts as true, a bound progress bar and a bound
statistic in it, and a node of a type that names no kind behind it. -/
def panelPage : Node :=
  ⟨"root", .blank (some .container), some [
    ⟨"panel", .blank (some .card), some [shareBar, visitsTile], { visibleIf := some "open" }⟩,
    ⟨"hologram", .unknown "Hologram" [], some [.make "under" (.blank (some .text))], {}⟩], {}⟩

/-- Variables with which the panel shows: a share as text between blanks, and a number of visits. -/
def panelVariables : Variables :=
  [("open", .bool true), ("share", .string " 62.5\n"), ("visits", .number (.whole 1200))]

/-- The face at a place shows the node at that place. -/
theorem exists_pictured {vs : Variables} {selection : Option String} {ns : List Node} {fs : List Face}
    (h : List.Forall₂ (Pictures vs selection) ns fs) {i : Nat} {n : Node} (hn : ns[i]? = some n) :
    ∃ f, fs[i]? = some f ∧ Pictures vs selection n f := by
  obtain ⟨hlength, hpictures⟩ := List.forall₂_iff_get.1 h
  obtain ⟨hi, rfl⟩ := List.getElem?_eq_some_iff.1 hn
  exact ⟨fs[i], List.getElem?_eq_getElem (hlength ▸ hi), hpictures i hi (hlength ▸ hi)⟩

/-- While the panel is open it is drawn with its bar, at the share that is stored, and its statistic,
with the number that is stored in place of its own; what is under the hologram never is. -/
theorem render?_interactive_panelPage :
    (∀ m ∈ panelPage.nodes, m.kind? = none → m.behavior.visibleIf = none) ∧
    (let faces := drawn (render? ⟨.interactive, panelVariables, none⟩ panelPage);
      faces.map (·.id) = ["root", "panel", "bar", "tile", "hologram"] ∧
      (∃ bar, faces[2]? = some bar ∧ bar.props =
        .known .progress ⟨(some (.finite false (125 * Nat.pow 2 1073)), ()), none, []⟩) ∧
      ∃ tile, faces[3]? = some tile ∧ tile.props =
        .known .statistic ⟨(some "Revenue", some "1200", some "+12%", ()), none, []⟩) ∧
    (drawn (render? ⟨.interactive, [], none⟩ panelPage)).map (·.id) = ["root", "hologram"] := by
  have hpage : ∀ m ∈ panelPage.nodes, m.kind? = none → m.behavior.visibleIf = none := by
    decide +kernel
  obtain ⟨hids, hpictures, -⟩ := render?_interactive panelVariables none hpage
  refine ⟨hpage, ⟨?_, ?_, ?_⟩, ?_⟩
  · rw [hids]
    decide +kernel
  · obtain ⟨bar, hbar, hpicture⟩ :=
      exists_pictured hpictures (i := 2) (n := shareBar) (by decide +kernel)
    obtain ⟨x, hx, hprops⟩ := hpicture.progress "share" _ rfl rfl
    refine ⟨bar, hbar, hprops.trans ?_⟩
    -- the stored text spells a number, with blanks around it
    have hvalue : Binary64.ofText? (Text.trim " 62.5\n".toList)
        = some (.finite false (125 * Nat.pow 2 1073)) := by decide +kernel
    have hstored : Entries.get? panelVariables "share" = some (.string " 62.5\n") := rfl
    rw [hstored] at hx
    cases hx with
    | numeral spells =>
      rw [Option.some.inj (spells.symm.trans hvalue)]
      rfl
    | words fails => nomatch fails.symm.trans hvalue
    | other _ noText => exact absurd rfl (noText _)
  · obtain ⟨tile, htile, hpicture⟩ :=
      exists_pictured hpictures (i := 3) (n := visitsTile) (by decide +kernel)
    obtain ⟨text, htext, hprops⟩ := hpicture.statistic "visits" _ rfl rfl
    refine ⟨tile, htile, hprops.trans ?_⟩
    have hvalue : Json.compact (.number (.whole 1200)) = "1200" := by decide +kernel
    have hstored : Entries.get? panelVariables "visits" = some (.number (.whole 1200)) := rfl
    rw [hstored] at htext
    cases htext with
    | json =>
      rw [hvalue]
      rfl
  · rw [(render?_interactive _ _ hpage).1]
    decide +kernel

/-! ## What is hidden -/

/-- In a tree with distinct ids, a node's id is drawn just when the node is. -/
theorem id_mem_drawn_iff (p : Pass) {n : Node} (h : n.ids.Nodup) {l : Node.Lineage}
    (hl : l ∈ n.lineages) :
    l.node.id ∈ (drawn (render? p n)).map (·.id) ↔ p.draws l = true := by
  rw [← Node.map_id_lineages] at h
  rw [ids_drawn, List.mem_map]
  constructor
  · rintro ⟨k, hk, hid⟩
    obtain ⟨hk, hdraws⟩ := List.mem_filter.1 hk
    rw [← List.inj_on_of_nodup_map h hk hl hid]
    exact hdraws
  · intro hdraws
    exact ⟨l, List.mem_filter.2 ⟨hl, hdraws⟩, rfl⟩

/-- A node that is hidden, of itself or by what it is under, and drawn all the same: it is of
unrecognised kind, and all that it is under is recognised and not hidden. -/
theorem draws_iff_of_hidden {vs : Variables} {selection : Option String} {l : Node.Lineage}
    (h : ∃ m ∈ l.node :: l.above, vs.allow m.behavior = false) :
    (Pass.mk .interactive vs selection).draws l = true ↔
      l.node.kind? = none ∧ vs.allow l.node.behavior = false ∧
        ∀ a ∈ l.above, a.kind? ≠ none ∧ vs.allow a.behavior = true := by
  rw [Pass.draws, Pass.hides_interactive rfl, Bool.not_not, funext opens_interactive]
  constructor
  · intro hdraws
    obtain ⟨hself, habove⟩ := Bool.and_eq_true_iff.1 hdraws
    have hopen : ∀ a ∈ l.above, a.kind? ≠ none ∧ vs.allow a.behavior = true := by
      intro a ha
      obtain ⟨hkind, hallow⟩ := Bool.and_eq_true_iff.1 (List.all_eq_true.1 habove a ha)
      exact ⟨Option.isSome_iff_ne_none.1 hkind, hallow⟩
    -- nothing that it is under is hidden, so it is hidden of itself
    have hhidden : vs.allow l.node.behavior = false := by
      obtain ⟨m, hm, hfalse⟩ := h
      rcases List.mem_cons.1 hm with rfl | hm
      · exact hfalse
      · nomatch hfalse.symm.trans (hopen m hm).2
    rw [hhidden, Bool.or_false] at hself
    exact ⟨Option.isNone_iff_eq_none.1 hself, hhidden, hopen⟩
  · rintro ⟨hkind, -, hopen⟩
    refine Bool.and_eq_true_iff.2 ⟨by rw [hkind]; rfl, List.all_eq_true.2 fun a ha => ?_⟩
    obtain ⟨hrecognised, hallow⟩ := hopen a ha
    rw [hallow, Bool.and_true]
    exact Option.isSome_iff_ne_none.2 hrecognised

/-- **What is hidden is not drawn**, in a tree with distinct ids, if and only if no node of unrecognised
kind is hidden of itself alone.

A node is hidden if the variables do not let it show, or do not let something show that it is under. -/
theorem hidden_absent_iff (vs : Variables) (selection : Option String) {n : Node}
    (h : n.ids.Nodup) :
    let v := render? ⟨.interactive, vs, selection⟩ n
    (∀ l ∈ n.lineages, (∃ m ∈ l.node :: l.above, vs.allow m.behavior = false) →
      l.node.id ∉ (drawn v).map (·.id)) ↔
    ∀ l ∈ n.lineages, l.node.kind? = none → vs.allow l.node.behavior = false →
      ∃ a ∈ l.above, a.kind? = none ∨ vs.allow a.behavior = false := by
  constructor
  · intro habsent l hl hkind hhidden
    -- a placeholder is drawn in spite of the variables, so only what is above it can keep it out
    have hself : ∃ m ∈ l.node :: l.above, vs.allow m.behavior = false :=
      ⟨l.node, List.mem_cons_self, hhidden⟩
    have hnot := habsent l hl hself
    rw [id_mem_drawn_iff _ h hl, draws_iff_of_hidden hself] at hnot
    by_contra hnone
    refine hnot ⟨hkind, hhidden, fun a ha => ⟨fun hk => hnone ⟨a, ha, Or.inl hk⟩, ?_⟩⟩
    exact eq_true_of_ne_false fun hfalse => hnone ⟨a, ha, Or.inr hfalse⟩
  · intro hcovered l hl hhidden hmem
    rw [id_mem_drawn_iff _ h hl, draws_iff_of_hidden hhidden] at hmem
    obtain ⟨hkind, hself, hopen⟩ := hmem
    obtain ⟨a, ha, hnone | hfalse⟩ := hcovered l hl hkind hself
    · exact (hopen a ha).1 hnone
    · nomatch hfalse.symm.trans (hopen a ha).2

/-- Neither the panel nor its bar is drawn while the panel is closed. -/
theorem hidden_absent_panelPage :
    panelPage.ids.Nodup ∧
    ∀ l ∈ panelPage.lineages, (∃ m ∈ l.node :: l.above, Variables.allow [] m.behavior = false) →
      l.node.id ∉ (drawn (render? ⟨.interactive, [], none⟩ panelPage)).map (·.id) := by
  have hids : panelPage.ids.Nodup := by decide +kernel
  refine ⟨hids, (hidden_absent_iff [] none hids).2 ?_⟩
  decide +kernel

/-- A node of a type that names no kind, which depends on a variable. -/
def hologram : Node := ⟨"x", .unknown "Hologram" [], none, { visibleIf := some "open" }⟩

/-- **A hidden node can be drawn**: `hologram` is, while its variable is not there. -/
theorem not_hidden_absent_hologram :
    hologram.ids.Nodup ∧
    ¬ ∀ l ∈ hologram.lineages, (∃ m ∈ l.node :: l.above, Variables.allow [] m.behavior = false) →
      l.node.id ∉ (drawn (render? ⟨.interactive, [], none⟩ hologram)).map (·.id) := by
  decide +kernel

end View
end PageBuilder
