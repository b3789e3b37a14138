/-
  A tree as lines of markup.

  Program:        `lines d n` — the lines of a node and of everything under it.
  Specification:  every node is one block of lines: a component that holds no nodes writes its own
                  lines, and a box writes an opening line, the blocks of its children one level
                  further in, and a closing line.  Nodes of unrecognised type are boxes too, so
                  nothing under them is lost.
  Crux:           both dialects are ONE definition; they differ in how an empty element is closed,
                  in a few bindings, and in how rows are repeated, and nowhere else.
-/
import PageBuilder.Export.Look
import PageBuilder.Markup.Line
import PageBuilder.Node.Basic

namespace PageBuilder.Export

open Markup

/-! ## Lines of one element -/

/-- The styling classes of some texts, unless they are blank. -/
def styled (parts : List String) : List Attribute := Attribute.ofClasses (ClassList.join parts)

/-- An element around some text. -/
def textElement (level : Nat) (e : String) (as : List Attribute) (s : String) : Line :=
  ⟨level, [.opening e as, .text s, .closing e]⟩

/-- The line that opens an element. -/
def openLine (level : Nat) (e : String) (as : List Attribute) : Line := ⟨level, [.opening e as]⟩

/-- The line that closes an element. -/
def closeLine (level : Nat) (e : String) : Line := ⟨level, [.closing e]⟩

/-- An element that never holds anything. -/
def voidElement (level : Nat) (e : String) (as : List Attribute) : Line :=
  ⟨level, [.selfClosing e as]⟩

/-- An element that holds nothing here. -/
def emptyElement (d : Dialect) (level : Nat) (e : String) (as : List Attribute) : Line :=
  match d with
  | .react => ⟨level, [.selfClosing e as]⟩
  | .vue => ⟨level, [.opening e as, .closing e]⟩

/-! ## Components that hold no nodes -/

/-- Stars of a rating: five unless it says otherwise, and never more than ten. -/
def stars (max : Option UInt32) : String :=
  String.ofList (List.replicate (min (max.getD 5).toNat 10) '★')

/-- The rows of a data list, repeated by an expression. -/
def repeatedRows (d : Dialect) (items : List ListItem) : List Line :=
  let literal := Attribute.code d (.array (items.map ListItem.toJson))
  let value := styled [Look.listValue]
  match d with
  | .react =>
    [⟨1, [.repeatOpening literal]⟩,
      openLine 2 "div" (.bound "key" "item.id" :: styled [Look.listRow]),
      ⟨3, [.opening "span" [], .code "\x7bitem.title\x7d", .closing "span"]⟩,
      ⟨3, [.opening "span" value, .code "\x7bitem.value\x7d", .closing "span"]⟩,
      closeLine 2 "div",
      ⟨1, [.repeatClosing]⟩]
  | .vue =>
    [openLine 1 "div" (.directive "v-for" ("item in " ++ literal) :: .bound "key" "item.id"
        :: styled [Look.listRow]),
      ⟨2, [.opening "span" [], .code "\x7b\x7b item.title \x7d\x7d", .closing "span"]⟩,
      ⟨2, [.opening "span" value, .code "\x7b\x7b item.value \x7d\x7d", .closing "span"]⟩,
      closeLine 1 "div"]

/-- The bar of a progress track, as wide as its share. -/
def progressBar (d : Dialect) (value : Option Binary64) : Line :=
  let width := "width: "
  let share := numberText (percent value) ++ "%"
  match d with
  | .react => emptyElement d 1 "div"
      (styled [Look.progressBar] ++ [.bound "style" ("\x7b " ++ width ++ "'" ++ share ++ "' \x7d")])
  | .vue => emptyElement d 1 "div"
      (styled [Look.progressBar] ++ [.plain "style" (width ++ share)])

/-- A labelled box to tick. -/
def tickBox (look : String) (role : List Attribute) (cls : String) (label : Option String) :
    List Line :=
  [openLine 0 "label" (styled [look, cls]),
    voidElement 1 "input" (.plain "type" "checkbox" :: role),
    textElement 1 "span" [] (label.getD ""),
    closeLine 0 "label"]

/-- One choice of a radio group. -/
def radioChoice (id option : String) : Line :=
  ⟨1, [.opening "label" (styled [Look.checkbox]),
    .selfClosing "input" [.plain "type" "radio", .plain "name" id, .plain "value" option],
    .text (" " ++ option), .closing "label"]⟩

/-- The steps of a breadcrumb; the last one is the current page. -/
def breadcrumbSteps : List String → List Line
  | [] => []
  | [s] => [textElement 2 "li" (.plain "aria-current" "page" :: styled [Look.breadcrumbCurrent]) s]
  | s :: rest => textElement 2 "li" [] s :: breadcrumbSteps rest

/-- One row of a table. -/
def tableRow (cell : String) (row : List String) : List Line :=
  openLine 2 "tr" [] :: (row.map (textElement 3 cell []) ++ [closeLine 2 "tr"])

/-- A text that is there, as a line of its own. -/
def optionalLine (e : String) (as : List Attribute) (s : Option String) : List Line :=
  (s.map (textElement 1 e as)).toList

/-- The number of a slider, or what it is without one. -/
def sliderValue (d : Dialect) (name : String) (x : Option Binary64) (otherwise : Nat) : Attribute :=
  Attribute.ofValue d name (Json.ofBinary64 (x.getD (Binary64.ofNat otherwise)))

/-- **The lines of a component** that holds no nodes, from level zero on. -/
def componentLines (d : Dialect) (id : String) : (k : Kind) → Settings k → List Line
  | .container, ⟨(), _, _⟩ => []
  | .card, ⟨(), _, _⟩ => []
  | .button, ⟨(label, variant, ()), cls, _⟩ =>
    [textElement 0 "button" (styled [cls.getD "", Look.button variant]) (label.getD "")]
  | .dataList, ⟨(title, _, items, _, _, _, ()), cls, _⟩ =>
    [openLine 0 "div" (styled [cls.getD "", Look.list]),
      textElement 1 "div" (styled [Look.listHeader]) (title.getD "")]
      ++ repeatedRows d items ++ [closeLine 0 "div"]
  | .badge, ⟨(label, variant, ()), cls, _⟩ =>
    [textElement 0 "span" (styled [Look.badge variant, cls.getD ""]) (label.getD "")]
  | .text, ⟨(content, ()), cls, _⟩ =>
    [textElement 0 "div" (styled [cls.getD ""]) (content.getD "")]
  | .input, s => [voidElement 0 "input" (Attribute.ofProps d [] s.toFields)]
  | .textarea, s => [emptyElement d 0 "textarea" (Attribute.ofProps d [] s.toFields)]
  | .image, s => [voidElement 0 "img" (Attribute.ofProps d [] s.toFields)]
  | .divider, ⟨(), cls, _⟩ => [voidElement 0 "hr" (styled [Look.divider, cls.getD ""])]
  | .avatar, ⟨(src, alt, initials, ()), cls, _⟩ =>
    match Action.present src with
    | some src =>
      [voidElement 0 "img" (.plain "src" src :: .plain "alt" (alt.getD "")
        :: styled [Look.avatarImage, cls.getD ""])]
    | none =>
      [textElement 0 "div" (styled [Look.avatarInitials, cls.getD ""]) (initials.getD "")]
  | .toggle, ⟨(label, ()), cls, _⟩ =>
    tickBox Look.toggle [.plain "role" "switch"] (cls.getD "") label
  | .checkbox, ⟨(label, ()), cls, _⟩ => tickBox Look.checkbox [] (cls.getD "") label
  | .slider, ⟨(min, max, value, ()), cls, _⟩ =>
    [voidElement 0 "input" ([.plain "type" "range", sliderValue d "min" min 0,
      sliderValue d "max" max 100,
      sliderValue d (Attribute.keyIn d "defaultValue") value 50] ++ styled [cls.getD ""])]
  | .progress, ⟨(value, ()), cls, _⟩ =>
    [openLine 0 "div" (styled [Look.progressTrack, cls.getD ""]), progressBar d value,
      closeLine 0 "div"]
  | .alert, ⟨(title, body, tone, ()), cls, _⟩ =>
    openLine 0 "div" (.plain "role" "alert" :: styled [Look.alert tone, cls.getD ""])
      :: (optionalLine "strong" (styled [Look.alertTitle]) title ++ optionalLine "p" [] body
        ++ [closeLine 0 "div"])
  | .select, ⟨(options, ()), cls, _⟩ =>
    openLine 0 "select" (styled [cls.getD ""])
      :: ((options.getD []).map (textElement 1 "option" []) ++ [closeLine 0 "select"])
  | .spacer, ⟨(height, ()), cls, _⟩ =>
    [emptyElement d 0 "div"
      (styled ["h-" ++ numberText (height.getD (Binary64.ofNat 4)), cls.getD ""])]
  | .rating, ⟨(max, ()), cls, _⟩ =>
    [textElement 0 "div" (styled [Look.rating, cls.getD ""]) (stars max)]
  | .radioGroup, ⟨(options, ()), cls, _⟩ =>
    openLine 0 "div" (.plain "role" "radiogroup" :: styled [Look.radioGroup, cls.getD ""])
      :: ((options.getD []).map (radioChoice id) ++ [closeLine 0 "div"])
  | .breadcrumb, ⟨(items, ()), cls, _⟩ =>
    [openLine 0 "nav" (.plain "aria-label" "Breadcrumb" :: styled [cls.getD ""]),
      openLine 1 "ol" (styled [Look.breadcrumb])]
      ++ breadcrumbSteps (items.getD []) ++ [closeLine 1 "ol", closeLine 0 "nav"]
  | .tag, ⟨(label, ()), cls, _⟩ =>
    [textElement 0 "span" (styled [Look.tag, cls.getD ""]) (label.getD "")]
  | .statistic, ⟨(label, value, trend, ()), cls, _⟩ =>
    [openLine 0 "div" (styled [cls.getD ""]),
      textElement 1 "div" (styled [Look.statLabel]) (label.getD ""),
      textElement 1 "div" (styled [Look.statValue]) (value.getD "")]
      ++ optionalLine "div" (styled [Look.statTrend]) trend ++ [closeLine 0 "div"]
  | .quote, ⟨(content, author, ()), cls, _⟩ =>
    [openLine 0 "blockquote" (styled [Look.quote, cls.getD ""]),
      textElement 1 "p" [] (content.getD "")]
      ++ optionalLine "cite" (styled [Look.quoteAuthor]) author ++ [closeLine 0 "blockquote"]
  | .video, ⟨(src, ()), cls, _⟩ =>
    [emptyElement d 0 "video" (Attribute.optional "src" (Action.present src)
      ++ .flag "controls" :: styled [Look.video, cls.getD ""])]
  | .map, ⟨(), cls, _⟩ => [textElement 0 "div" (styled [Look.map, cls.getD ""]) "Map"]
  | .table, ⟨(headers, rows, ()), cls, _⟩ =>
    [openLine 0 "table" (styled [Look.table, cls.getD ""]), openLine 1 "thead" []]
      ++ tableRow "th" (headers.getD []) ++ [closeLine 1 "thead", openLine 1 "tbody" []]
      ++ (rows.getD []).flatMap (tableRow "td") ++ [closeLine 1 "tbody", closeLine 0 "table"]
  | .codeBlock, ⟨(code, ()), cls, _⟩ =>
    let look := styled [Look.code, cls.getD ""]
    match d with
    | .react => [⟨0, [.opening "pre" look, .opening "code" [],
        .code ("\x7b" ++ Attribute.code d (.string (code.getD "")) ++ "\x7d"), .closing "code",
        .closing "pre"]⟩]
    | .vue => [⟨0, [.opening "pre" (look ++ [.flag "v-pre"]), .opening "code" [],
        .text (code.getD ""), .closing "code", .closing "pre"]⟩]

/-! ## Nodes of unrecognised type -/

/-- What a placeholder says: its label, content or title, or else its type. -/
def placeholderText (typeName : String) (fs : Json.Fields) : String :=
  (["label", "content", "title"].findSome? fun k => (Entries.get? fs k).bind Json.string?).getD
    typeName

/-- The attributes of a placeholder. -/
def placeholderAttributes (d : Dialect) (typeName : String) (fs : Json.Fields) : List Attribute :=
  .plain "data-unknown-component" typeName
    :: (Attribute.ofProps d ["label", "title", "className"] fs
      ++ styled [Look.unknown, ((Props.unknown typeName fs).className?).getD ""])

/-! ## Trees -/

/-- The block of a node around the lines of its children. -/
def block (d : Dialect) (id : String) (p : Props) (inner : List Line) : List Line :=
  match p with
  | .known k s =>
    if k.isContainer then
      let look := styled [s.className.getD ""]
      if inner.isEmpty then [emptyElement d 0 "div" look]
      else openLine 0 "div" look :: (inner.map (Line.deeper 1) ++ [closeLine 0 "div"])
    else componentLines d id k s
  | .unknown t fs =>
    let as := placeholderAttributes d t fs
    let label := placeholderText t fs
    if inner.isEmpty then [textElement 0 "div" as label]
    else openLine 0 "div" as :: textElement 1 "span" [] label
      :: (inner.map (Line.deeper 1) ++ [closeLine 0 "div"])

mutual
/-- **The lines** of a node and of everything under it, from level zero on. -/
def lines (d : Dialect) : Node → List Line
  | ⟨id, p, none, _⟩ => block d id p []
  | ⟨id, p, some cs, _⟩ => block d id p (allLines d cs)

/-- The blocks of some nodes, one after the other. -/
def allLines (d : Dialect) : List Node → List Line
  | [] => []
  | n :: ns => lines d n ++ allLines d ns
end

/-- The lines of a node from a level on. -/
def fragment (d : Dialect) (level : Nat) (n : Node) : List Line :=
  (lines d n).map (Line.deeper level)

/-- The text of a node from a level on. -/
def fragmentText (d : Dialect) (width level : Nat) (n : Node) : String :=
  write d width (fragment d level n)

end PageBuilder.Export
