/-
  The component kinds.

  A kind is one of 28; a node whose type names none of them is kept as it came, without a kind.
  Containers and cards alone hold children, toggles and checkboxes alone are checked.
-/
import PageBuilder.Choice
import PageBuilder.Text.Lowercase

namespace PageBuilder

/-- The component kinds, in palette order. -/
inductive Kind where
  | container | card | button | dataList | badge | text | input | textarea | image | divider
  | avatar | toggle | checkbox | slider | progress | alert | select | spacer | rating | radioGroup
  | breadcrumb | tag | statistic | quote | video | map | table | codeBlock
deriving DecidableEq, Repr

instance : Choice Kind where
  all := [.container, .card, .button, .dataList, .badge, .text, .input, .textarea, .image, .divider,
    .avatar, .toggle, .checkbox, .slider, .progress, .alert, .select, .spacer, .rating, .radioGroup,
    .breadcrumb, .tag, .statistic, .quote, .video, .map, .table, .codeBlock]
  name
    | .container => "Container"
    | .card => "Card"
    | .button => "Button"
    | .dataList => "DataList"
    | .badge => "Badge"
    | .text => "Text"
    | .input => "Input"
    | .textarea => "Textarea"
    | .image => "Image"
    | .divider => "Divider"
    | .avatar => "Avatar"
    | .toggle => "Toggle"
    | .checkbox => "Checkbox"
    | .slider => "Slider"
    | .progress => "Progress"
    | .alert => "Alert"
    | .select => "Select"
    | .spacer => "Spacer"
    | .rating => "Rating"
    | .radioGroup => "RadioGroup"
    | .breadcrumb => "Breadcrumb"
    | .tag => "Tag"
    | .statistic => "Statistic"
    | .quote => "Quote"
    | .video => "Video"
    | .map => "Map"
    | .table => "Table"
    | .codeBlock => "CodeBlock"
  found a := by cases a <;> decide

namespace Kind

/-- Wire name of a kind. -/
abbrev name (k : Kind) : String := Choice.name k

/-- Wire name of a node without a kind, where a name is asked for. -/
def unknownName : String := "Unknown"

/-- Kinds that hold children. -/
def isContainer : Kind → Bool
  | .container | .card => true
  | _ => false

theorem isContainer_iff {k : Kind} : k.isContainer = true ↔ k = .container ∨ k = .card := by
  cases k <;> decide

/-- Kinds whose bound variable says whether they are checked. -/
def isCheckable : Kind → Bool
  | .toggle | .checkbox => true
  | _ => false

/-- Prefix of a generated id. -/
def idPrefix (k : Kind) : String := Text.lowercase k.name

end Kind
end PageBuilder
