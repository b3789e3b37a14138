/-
  Drawing a page.

  Program:        `render?`.
  Specification:  in design mode every node of a recognised kind shows, as it is; in interactive mode
                  such a node shows iff the variable it depends on is true, and what is bound to a
                  variable shows the variable's value.  A node of unrecognised type always shows, as
                  a placeholder with nothing under it.
  Crux:           only `display?` knows the modes; the recursion hands it what is under a node.
-/
import PageBuilder.View.Basic

namespace PageBuilder

/-- What a page is drawn with. -/
structure Pass where
  mode : Mode
  vars : Variables
  selection : Option String := none
deriving DecidableEq

namespace Pass

def isInteractive (p : Pass) : Bool := p.mode == .interactive

/-- Whether a node is not drawn. -/
def hides (p : Pass) (b : Behavior) : Bool :=
  p.isInteractive && b.visibleIf.any fun name => !p.vars.truthy name

/-- The variable that drives a node in this pass. -/
def boundVariable? (p : Pass) (b : Behavior) : Option String :=
  if p.isInteractive then b.bind else none

/-- The value pushed into a node that is bound to a variable. -/
def boundValue (p : Pass) (k : Kind) (name : String) : BoundValue :=
  if k.isCheckable then .checked (p.vars.truthy name)
  else .value ((Entries.get? p.vars name).getD (.string ""))

/-- Props, with the value of the variable they are bound to. -/
def boundProps (p : Pass) (b : Behavior) (props : Props) : Props :=
  match p.boundVariable? b with
  | none => props
  | some name => props.withBound (Entries.get? p.vars name)

/-- The interactions of a node in this pass. -/
def interactions (p : Pass) (b : Behavior) : Interactions :=
  if p.isInteractive then
    ⟨b.onClick.isSome, b.onHover.isSome, b.onBlur.isSome, b.bind.isSome⟩
  else {}

end Pass

/-- The rows of props that are a data list's. -/
def Props.listView? : Props → Option ListView
  | .known .dataList s =>
    let l := ListSettings.ofSettings s
    some ⟨l.visible, l.emptyMessage? l.visible.length⟩
  | _ => none

namespace View

/-- Text of the placeholder of a type. -/
def placeholderText (typeName : String) : String := "Unknown: " ++ typeName

/-- A face without anything that depends on the mode. -/
def plainFace (p : Pass) (id : String) (props : Props) (b : Behavior) : Face where
  id := id
  props := props
  tooltip := b.tooltip
  animation := b.animation
  selected := p.selection == some id

/-- The view of one node, given the views of its children; nothing if it is hidden. -/
def display? (p : Pass) (id : String) (props : Props) (b : Behavior) (children : List View) :
    Option View :=
  match props with
  | .unknown t fs =>
    some ⟨{ plainFace p id (.unknown t fs) b with placeholder := some (placeholderText t) }, []⟩
  | .known k s =>
    if p.hides b then none
    else
      let shown := p.boundProps b (.known k s)
      some ⟨{ plainFace p id shown b with
        bound := (p.boundVariable? b).map (p.boundValue k)
        interactions := p.interactions b
        list := shown.listView? }, children⟩

mutual
/-- **The drawing** of a tree; nothing if its root is hidden. -/
def render? (p : Pass) : Node → Option View
  | ⟨id, props, none, b⟩ => display? p id props b []
  | ⟨id, props, some cs, b⟩ => display? p id props b (renderAll p cs)

/-- The drawings of those that are not hidden. -/
def renderAll (p : Pass) : List Node → List View
  | [] => []
  | n :: ns => (render? p n).toList ++ renderAll p ns
end

end View
end PageBuilder
