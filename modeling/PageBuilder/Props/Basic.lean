/-
  Props: what a component is set to.

  Every kind MODELS a few fields, each in a format of its own, and a class name; all other fields of
  its props are kept as they came.  One description, `Kind.fields`, says which fields a kind models,
  and reading, writing, recovering and merging are each one definition over that description.

  Programs:       `parse?`     — props from an object, all or nothing;
                  `recover`    — props from an object, field by field;
                  `toFields`   — props as an object;
                  `merged?`    — props with some fields changed.
  Specification:  an object parses iff every field of it parses alone, so `recover` keeps exactly the
                  fields that do; the written object has the modelled fields in the order of the
                  description, then the class name, then the others in the order in which they came.
-/
import PageBuilder.Props.Format
import PageBuilder.Text.Blank
import PageBuilder.Value

namespace PageBuilder

/-- A modelled field: its wire name and what it holds. -/
structure Field where
  key : String
  format : Format
deriving DecidableEq, Repr

/-- **The description**: the fields a kind models, in wire order, the class name aside. -/
@[reducible] def Kind.fields : Kind → List Field
  | .container => []
  | .card => []
  | .button => [⟨"label", .text⟩, ⟨"variant", .buttonVariant⟩]
  | .dataList => [⟨"title", .text⟩, ⟨"description", .text⟩, ⟨"items", .items⟩,
      ⟨"filterQuery", .text⟩, ⟨"sortKey", .sortKey⟩, ⟨"sortOrder", .sortOrder⟩]
  | .badge => [⟨"label", .text⟩, ⟨"variant", .badgeVariant⟩]
  | .text => [⟨"content", .text⟩]
  | .input => [⟨"placeholder", .text⟩, ⟨"type", .text⟩, ⟨"defaultValue", .text⟩]
  | .textarea => [⟨"placeholder", .text⟩, ⟨"rows", .count⟩, ⟨"defaultValue", .text⟩]
  | .image => [⟨"src", .text⟩, ⟨"alt", .text⟩]
  | .divider => []
  | .avatar => [⟨"src", .text⟩, ⟨"alt", .text⟩, ⟨"initials", .text⟩]
  | .toggle => [⟨"label", .text⟩]
  | .checkbox => [⟨"label", .text⟩]
  | .slider => [⟨"min", .number⟩, ⟨"max", .number⟩, ⟨"defaultValue", .number⟩]
  | .progress => [⟨"value", .number⟩]
  | .alert => [⟨"title", .text⟩, ⟨"children", .text⟩, ⟨"type", .tone⟩]
  | .select => [⟨"options", .names⟩]
  | .spacer => [⟨"height", .number⟩]
  | .rating => [⟨"max", .count⟩]
  | .radioGroup => [⟨"options", .names⟩]
  | .breadcrumb => [⟨"items", .names⟩]
  | .tag => [⟨"label", .text⟩]
  | .statistic => [⟨"label", .text⟩, ⟨"value", .text⟩, ⟨"trend", .text⟩]
  | .quote => [⟨"content", .text⟩, ⟨"author", .text⟩]
  | .video => [⟨"src", .text⟩]
  | .map => []
  | .table => [⟨"headers", .names⟩, ⟨"rows", .rows⟩]
  | .codeBlock => [⟨"code", .text⟩]

/-! ## Records: one cell per field -/

/-- The cells of some fields, in order. -/
@[reducible] def Record : List Field → Type
  | [] => Unit
  | f :: fs => f.format.Cell × Record fs

namespace Record

def decEq : (fs : List Field) → DecidableEq (Record fs)
  | [] => inferInstanceAs (DecidableEq Unit)
  | f :: fs =>
    have := decEq fs
    inferInstanceAs (DecidableEq (f.format.Cell × Record fs))

instance (fs : List Field) : DecidableEq (Record fs) := decEq fs

/-- Nothing set. -/
def blank : (fs : List Field) → Record fs
  | [] => ()
  | f :: fs => (f.format.blank, blank fs)

/-- The cell of a field in an object. -/
def readField? (f : Field) (m : Json.Fields) : Option f.format.Cell :=
  match Entries.get? m f.key with
  | none => some f.format.blank
  | some v => f.format.read v

/-- Every field's cell in an object. -/
def read? : (fs : List Field) → Json.Fields → Option (Record fs)
  | [], _ => some ()
  | f :: fs, m => do
    let c ← readField? f m
    let r ← read? fs m
    some (c, r)

/-- The field of a cell, if it is set. -/
def writeField (f : Field) (c : f.format.Cell) : Json.Fields :=
  match f.format.write c with
  | none => []
  | some v => [(f.key, v)]

/-- The fields that are set, in order. -/
def write : (fs : List Field) → Record fs → Json.Fields
  | [], _ => []
  | f :: fs, (c, r) => writeField f c ++ write fs r

/-- Cell by cell the same. -/
def same : (fs : List Field) → Record fs → Record fs → Bool
  | [], _, _ => true
  | f :: fs, (c, r), (d, s) => f.format.same c d && same fs r s

end Record

/-! ## Props of a kind -/

/-- The field every kind models beside its own. -/
def Field.className : Field := ⟨"className", .text⟩

/-- Every key a kind models. -/
def Kind.keys (k : Kind) : List String := k.fields.map (·.key) ++ [Field.className.key]

/-- Props of a component of one kind. -/
structure Settings (k : Kind) where
  cells : Record k.fields
  className : Option String
  /-- The fields the kind does not model, as they came. -/
  others : Json.Fields
deriving DecidableEq

namespace Settings

variable {k : Kind}

/-- Nothing set. -/
def blank (k : Kind) : Settings k := ⟨Record.blank k.fields, none, []⟩

/-- **The strict reader**: every modelled field must fit its format. -/
def parse? (k : Kind) (m : Json.Fields) : Option (Settings k) := do
  let cells ← Record.read? k.fields m
  let className ← Record.readField? Field.className m
  some ⟨cells, className, m.filter fun e => !k.keys.contains e.1⟩

/-- **The lenient reader**: fields that do not parse alone are left out. -/
def recover (k : Kind) (m : Json.Fields) : Settings k :=
  match parse? k m with
  | some s => s
  | none =>
    match parse? k (m.filter fun e => (parse? k [e]).isSome) with
    | some s => s
    | none => blank k

/-- **The writer**. -/
def toFields (s : Settings k) : Json.Fields :=
  Record.write k.fields s.cells ++ Record.writeField Field.className s.className ++ s.others

/-- The same in every cell, and in the other fields as a map. -/
def same (s t : Settings k) : Bool :=
  Record.same k.fields s.cells t.cells && s.className == t.className
    && Json.same (.object s.others) (.object t.others)

end Settings

/-! ## Props of a node -/

/-- Props of a node: of a kind, or of a type that names none, with everything as it came. -/
inductive Props where
  | known (k : Kind) (s : Settings k)
  | unknown (typeName : String) (fields : Json.Fields)
deriving DecidableEq

/-- Why props are refused. -/
inductive PropsError where
  | invalid (k : Kind)
  | unknownKind
deriving DecidableEq, Repr

/-- The text of an error. -/
def PropsError.message : PropsError → String
  | .invalid k => "Invalid props for " ++ k.name
  | .unknownKind => "Unknown component kind: " ++ Kind.unknownName

namespace Props

/-- The kind, if there is one. -/
def kind? : Props → Option Kind
  | .known k _ => some k
  | .unknown _ _ => none

/-- The name on the wire: the kind's, or the one that came. -/
def typeName : Props → String
  | .known k _ => k.name
  | .unknown t _ => t

/-- Whether children belong under such a node. -/
def isContainer (p : Props) : Bool :=
  match p.kind? with
  | some k => k.isContainer
  | none => false

/-- Nothing set, for a kind or for none. -/
def blank : Option Kind → Props
  | some k => .known k (.blank k)
  | none => .unknown "" []

/-- Props as an object. -/
def toFields : Props → Json.Fields
  | .known _ s => s.toFields
  | .unknown _ fs => fs

/-- Props of a kind from an object; without a kind there is nothing to read them as. -/
def parse? : Option Kind → Json.Fields → Except PropsError Props
  | some k, m =>
    match Settings.parse? k m with
    | some s => .ok (.known k s)
    | none => .error (.invalid k)
  | none, _ => .error .unknownKind

/-- Props for a wire name, whatever the object holds. -/
def recover (typeName : String) (m : Json.Fields) : Props :=
  match Choice.ofName? typeName with
  | some k => .known k (.recover k m)
  | none => .unknown typeName m

/-- The styling classes. -/
def className? : Props → Option String
  | .known _ s => s.className
  | .unknown _ fs => (Entries.get? fs "className").bind Json.string?

/-- Equal props, as an edit means it. -/
def same : Props → Props → Bool
  | .known k s, .known l t => if h : k = l then (h ▸ s).same t else false
  | .unknown t fs, .unknown u gs => t == u && Json.same (.object fs) (.object gs)
  | _, _ => false

/-! ## Changing props -/

/-- One change of an object: `null` removes the field, anything else writes it. -/
def change (m : Json.Fields) (e : String × Json) : Json.Fields :=
  if e.2.isNull then Entries.swapErase m e.1 else Entries.put m e.1 e.2

/-- **The merge**: the fields of `partials` over the props, `null` clearing a field. -/
def merged? (p : Props) (partials : Json.Fields) : Except PropsError Props :=
  let m := partials.foldl change p.toFields
  match p with
  | .known k _ => parse? (some k) m
  | .unknown t _ => .ok (.unknown t m)

/-- The number a bound value gives a progress bar. -/
def progressOf : Json → Option Binary64
  | .number n => some n.toBinary64
  | .string s => Binary64.ofText? (Text.trim s.toList)
  | _ => none

/-- The value of a bound variable written over the field that shows it, where a kind has one. -/
def withBound (value : Option Json) : Props → Props
  | .known .progress s => .known .progress { s with cells := (value.bind progressOf, ()) }
  | .known .statistic s =>
    let (label, _, trend) := s.cells
    .known .statistic { s with cells := (label, some ((value.map Json.display).getD ""), trend) }
  | p => p

end Props

/-! ## Percentages -/

/-- The share a progress bar shows: its value, nothing counting as zero, kept within 0 and 100. -/
def percent (value : Option Binary64) : Binary64 :=
  (value.getD Binary64.zero).clamp Binary64.zero Binary64.hundred

end PageBuilder
