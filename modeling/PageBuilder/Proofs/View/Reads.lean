/-
  What a drawing depends on.

  Programs:       `Node.inert` — a tree without its logic; `Node.variableNames` — the variables that
                  its nodes name.
  Specification:  `render?_reads` — the editor draws a tree as it draws the tree without its logic,
                  whatever the variables hold; a page in use depends on nothing in the variables but
                  what the names in it stand for.
  Crux:           `display?_design` and `display?_congr` — one node at a time; the recursion hands
                  nothing down but the pass.
-/
import PageBuilder.Proofs.View.Drawn

namespace PageBuilder

/-! ## Logic -/

/-- Behavior without logic: nothing is bound, always shown, and no event does anything. -/
def Behavior.inert (b : Behavior) : Behavior := { tooltip := b.tooltip, animation := b.animation }

/-- The variables that a node is bound to or depends on. -/
def Behavior.variableNames (b : Behavior) : List String := b.bind.toList ++ b.visibleIf.toList

namespace Node

mutual
/-- **A tree without its logic**; all else is as it was. -/
def inert : Node → Node
  | ⟨i, p, none, b⟩ => ⟨i, p, none, b.inert⟩
  | ⟨i, p, some cs, b⟩ => ⟨i, p, some (inertAll cs), b.inert⟩

def inertAll : List Node → List Node
  | [] => []
  | n :: ns => inert n :: inertAll ns
end

/-- **The variables that a tree names**. -/
def variableNames (n : Node) : List String := n.nodes.flatMap (·.behavior.variableNames)

theorem inertAll_eq (ns : List Node) : inertAll ns = ns.map inert := by
  induction ns with
  | nil => rfl
  | cons n ns ih => rw [inertAll, ih, List.map_cons]

theorem id_inert (n : Node) : n.inert.id = n.id := by
  obtain ⟨i, p, cs, b⟩ := n
  cases cs <;> rfl

theorem props_inert (n : Node) : n.inert.props = n.props := by
  obtain ⟨i, p, cs, b⟩ := n
  cases cs <;> rfl

theorem behavior_inert (n : Node) : n.inert.behavior = n.behavior.inert := by
  obtain ⟨i, p, cs, b⟩ := n
  cases cs <;> rfl

theorem childList_inert (n : Node) : n.inert.childList = n.childList.map inert := by
  obtain ⟨i, p, cs, b⟩ := n
  cases cs with
  | none => rfl
  | some cs => exact inertAll_eq cs

/-- The names in a tree are those at its root and those under it. -/
theorem forall_variableNames_iff {Q : String → Prop} {n : Node} :
    (∀ x ∈ n.variableNames, Q x) ↔
      (∀ x ∈ n.behavior.variableNames, Q x) ∧ ∀ c ∈ n.childList, ∀ x ∈ c.variableNames, Q x := by
  have heq : n.variableNames
      = n.behavior.variableNames ++ n.childList.flatMap variableNames := by
    unfold variableNames
    rw [nodes_cons, List.flatMap_cons, List.flatMap_assoc]
  rw [heq, List.forall_mem_append, List.forall_mem_flatMap]

end Node

/-! ## What a pass takes from the variables -/

namespace Pass

variable {vs ws : Variables} {selection : Option String} {b : Behavior}

/-- Whether a node is hidden depends on the variable it depends on. -/
theorem hides_congr (h : ∀ x ∈ b.visibleIf, Entries.get? vs x = Entries.get? ws x) :
    (mk .interactive vs selection).hides b = (mk .interactive ws selection).hides b := by
  rw [hides_interactive rfl, hides_interactive rfl]
  unfold Variables.allow Variables.truthy
  cases hvisible : b.visibleIf with
  | none => rfl
  | some x =>
    dsimp only [Option.all_some]
    rw [h x hvisible]

/-- The props of a node depend on the variable it is bound to. -/
theorem boundProps_congr (h : ∀ x ∈ b.bind, Entries.get? vs x = Entries.get? ws x)
    (props : Props) :
    (mk .interactive vs selection).boundProps b props
      = (mk .interactive ws selection).boundProps b props := by
  unfold boundProps
  rw [boundVariable?_interactive rfl, boundVariable?_interactive rfl]
  cases hbind : b.bind with
  | none => rfl
  | some x =>
    dsimp only
    rw [h x hbind]

/-- So does the value that is pushed into it. -/
theorem bound_congr (h : ∀ x ∈ b.bind, Entries.get? vs x = Entries.get? ws x) (k : Kind) :
    ((mk .interactive vs selection).boundVariable? b).map
        ((mk .interactive vs selection).boundValue k)
      = ((mk .interactive ws selection).boundVariable? b).map
        ((mk .interactive ws selection).boundValue k) := by
  rw [boundVariable?_interactive rfl, boundVariable?_interactive rfl]
  cases hbind : b.bind with
  | none => rfl
  | some x =>
    unfold boundValue Variables.truthy
    dsimp only [Option.map_some]
    rw [h x hbind]

end Pass

namespace View

variable {vs ws : Variables} {selection : Option String}

/-! ## In the editor -/

/-- A node in the editor: neither the variables nor its logic have a part in how it shows. -/
theorem display?_design (vs ws : Variables) (selection : Option String) (id : String)
    (props : Props) (b : Behavior) (children : List View) :
    display? ⟨.design, vs, selection⟩ id props b children
      = display? ⟨.design, ws, selection⟩ id props b.inert children := by
  cases props <;> rfl

/-- **A tree in the editor** shows as the tree without its logic. -/
theorem render?_inert (vs ws : Variables) (selection : Option String) (n : Node) :
    render? ⟨.design, vs, selection⟩ n = render? ⟨.design, ws, selection⟩ n.inert := by
  induction n using Node.induct with
  | step n ih =>
    have hunder : renderAll ⟨.design, vs, selection⟩ n.childList
        = renderAll ⟨.design, ws, selection⟩ n.inert.childList := by
      rw [renderAll_eq, renderAll_eq, Node.childList_inert, List.flatMap_map]
      exact List.flatMap_congr fun c hc => congrArg _ (ih c hc)
    rw [render?_eq, render?_eq _ n.inert, hunder, Node.id_inert, Node.props_inert,
      Node.behavior_inert]
    exact display?_design vs ws selection n.id n.props n.behavior _

/-! ## In use -/

/-- A node in use: only the variables that it names have a part in how it shows. -/
theorem display?_congr {b : Behavior}
    (h : ∀ x ∈ b.variableNames, Entries.get? vs x = Entries.get? ws x) (id : String) (props : Props)
    (children : List View) :
    display? ⟨.interactive, vs, selection⟩ id props b children
      = display? ⟨.interactive, ws, selection⟩ id props b children := by
  have hbind : ∀ x ∈ b.bind, Entries.get? vs x = Entries.get? ws x := fun x hx =>
    h x (List.mem_append_left _ (Option.mem_toList.2 hx))
  have hvisible : ∀ x ∈ b.visibleIf, Entries.get? vs x = Entries.get? ws x := fun x hx =>
    h x (List.mem_append_right _ (Option.mem_toList.2 hx))
  cases props with
  | unknown t fs => rfl
  | known k s =>
    unfold display?
    dsimp only
    rw [Pass.hides_congr hvisible, Pass.boundProps_congr hbind, Pass.bound_congr hbind k]
    rfl

/-- **A page in use** depends only on what the names in it stand for. -/
theorem render?_congr {n : Node}
    (h : ∀ x ∈ n.variableNames, Entries.get? vs x = Entries.get? ws x) :
    render? ⟨.interactive, vs, selection⟩ n = render? ⟨.interactive, ws, selection⟩ n := by
  induction n using Node.induct with
  | step n ih =>
    obtain ⟨hroot, hbelow⟩ := Node.forall_variableNames_iff.1 h
    have hunder : renderAll ⟨.interactive, vs, selection⟩ n.childList
        = renderAll ⟨.interactive, ws, selection⟩ n.childList := by
      rw [renderAll_eq, renderAll_eq]
      exact List.flatMap_congr fun c hc => congrArg _ (ih c hc (hbelow c hc))
    rw [render?_eq, render?_eq _ n, hunder]
    exact display?_congr hroot n.id n.props _

/-- **What a drawing depends on.**

In the editor, two trees that are equal but for their logic are drawn the same, whatever the variables
hold.  In use, a tree is drawn the same with any two stores that hold the same under every name that a
node of it is bound to or depends on; what is not there in one must not be there in the other. -/
theorem render?_reads (vs ws : Variables) (selection : Option String) :
    (∀ m n : Node, m.inert = n.inert →
      render? ⟨.design, vs, selection⟩ m = render? ⟨.design, ws, selection⟩ n) ∧
    ∀ n : Node, (∀ x ∈ n.variableNames, Entries.get? vs x = Entries.get? ws x) →
      render? ⟨.interactive, vs, selection⟩ n = render? ⟨.interactive, ws, selection⟩ n := by
  constructor
  · intro m n h
    calc render? ⟨.design, vs, selection⟩ m
        = render? ⟨.design, vs, selection⟩ m.inert := render?_inert vs vs selection m
      _ = render? ⟨.design, vs, selection⟩ n.inert := by rw [h]
      _ = render? ⟨.design, ws, selection⟩ n := (render?_inert ws vs selection n).symm
  · exact fun n h => render?_congr h

/-- `panelPage` without any variable: the panel always shows, and nothing in it is bound. -/
def openPage : Node :=
  ⟨"root", .blank (some .container), some [
    ⟨"panel", .blank (some .card),
      some [{ shareBar with behavior := {} }, { visitsTile with behavior := {} }],
      { onClick := some (.toggle (some "open")) }⟩,
    ⟨"hologram", .unknown "Hologram" [], some [.make "under" (.blank (some .text))], {}⟩], {}⟩

/-- The editor shows both pages alike; a store may hold what it likes under a name that the page in
use does not have. -/
theorem render?_reads_panelPage :
    panelPage.inert = openPage.inert ∧
    render? ⟨.design, [("open", .bool true)], none⟩ panelPage
      = render? ⟨.design, [], none⟩ openPage ∧
    (∀ x ∈ panelPage.variableNames, Entries.get? [("open", Json.bool true)] x
      = Entries.get? [("mode", .string "dark"), ("open", .bool true)] x) ∧
    render? ⟨.interactive, [("open", .bool true)], some "bar"⟩ panelPage
      = render? ⟨.interactive, [("mode", .string "dark"), ("open", .bool true)], some "bar"⟩
        panelPage := by
  have hinert : panelPage.inert = openPage.inert := by decide +kernel
  have hnames : ∀ x ∈ panelPage.variableNames, Entries.get? [("open", Json.bool true)] x
      = Entries.get? [("mode", .string "dark"), ("open", .bool true)] x := by
    decide +kernel
  exact ⟨hinert, (render?_reads _ _ none).1 _ _ hinert, hnames,
    (render?_reads _ _ (some "bar")).2 _ hnames⟩

end View
end PageBuilder
