/-
  Attributes of an element.

  A dialect has its own name for the styling classes and its own way to bind an expression.  The
  attributes of an element are a list of parts that say what they are; only `Attribute.text` knows
  how a dialect spells them.
-/
import PageBuilder.ClassList
import PageBuilder.Text.Lowercase
import PageBuilder.Markup.Escape
import PageBuilder.Markup.Literal

namespace PageBuilder.Markup

/-- What a page is exported as. -/
inductive Dialect where
  /-- A function component. -/
  | react
  /-- A single-file component. -/
  | vue
deriving DecidableEq, Repr

/-- One attribute. -/
inductive Attribute where
  /-- The styling classes, one blank between them. -/
  | classes (value : String)
  /-- A text. -/
  | plain (name value : String)
  /-- An expression bound to a name. -/
  | bound (name code : String)
  /-- A directive with code of its own. -/
  | directive (name code : String)
  /-- A name alone. -/
  | flag (name : String)
deriving DecidableEq, Repr

namespace Attribute

/-- A name, an equals sign and a value in double quotes. -/
def assign (name value : String) : String := name ++ "=\"" ++ value ++ "\""

/-- The name of the styling classes. -/
def classKey : Dialect → String
  | .react => "className"
  | .vue => "class"

/-- The spelling of an attribute. -/
def text (d : Dialect) : Attribute → String
  | .classes v => assign (classKey d) (escapeAttribute v)
  | .plain n v => assign n (escapeAttribute v)
  | .bound n c =>
    match d with
    | .react => n ++ "=\x7b" ++ c ++ "\x7d"
    | .vue => assign (":" ++ n) c
  | .directive n c => assign n c
  | .flag n => n

/-- The attributes of an element, each behind a blank. -/
def texts (d : Dialect) (as : List Attribute) : String :=
  String.join (as.map fun a => " " ++ a.text d)

/-! ## Building -/

/-- The styling classes of a text, unless it is blank. -/
def ofClasses (s : String) : List Attribute :=
  let joined := ClassList.join [s]
  if joined == "" then [] else [.classes joined]

/-- A text, if there is one. -/
def optional (name : String) (value : Option String) : List Attribute :=
  (value.map (Attribute.plain name)).toList

/-- Quotes that fit the place of a dialect's expressions. -/
def quote : Dialect → Quote
  | .react => .double
  | .vue => .single

/-- The literal of a value where a dialect has expressions. -/
def code (d : Dialect) (v : Json) : String := String.ofList (literal (quote d) v)

/-- Any value: a string as text, all else as an expression. -/
def ofValue (d : Dialect) (name : String) : Json → Attribute
  | .string s => .plain name s
  | v => .bound name (code d v)

/-- Letters, the underscore and the colon. -/
def isNameStart (c : Char) : Bool := c.isAlpha || c == '_' || c == ':'

/-- What may follow in a name. -/
def isNamePart (c : Char) : Bool := isNameStart c || c.isDigit || c == '-' || c == '.'

/-- Keys that can be written as the name of an attribute. -/
def isName (key : String) : Bool :=
  match key.toList with
  | [] => false
  | c :: cs => isNameStart c && cs.all isNamePart

/-- Props that are content and never attributes. -/
def contentKeys : List String := ["children", "items", "content"]

/-- The name of a prop as an attribute. -/
def keyIn (d : Dialect) (key : String) : String :=
  if d = .vue ∧ key = "defaultValue" then "value" else key

/-- One prop as an attribute, if it can be one. -/
def ofProp (d : Dialect) (skip : List String) (e : String × Json) : List Attribute :=
  if contentKeys.contains e.1 || skip.contains e.1 || !isName e.1 then []
  else
    match keyIn d e.1, e.2 with
    | "className", .string s => ofClasses s
    | key, v => [ofValue d key v]

/-- **Props as attributes**, in order, without content, without `skip`, and without keys that are no
names. -/
def ofProps (d : Dialect) (skip : List String) (fs : Json.Fields) : List Attribute :=
  fs.flatMap (ofProp d skip)

end Attribute

/-! ## Names of dialects -/

namespace Dialect

def name : Dialect → String
  | .react => "react"
  | .vue => "vue"

/-- Extension of an exported file. -/
def extension : Dialect → String
  | .react => "jsx"
  | .vue => "vue"

/-- Refusal of a name that no dialect has. -/
structure Unknown where
  name : String
deriving DecidableEq, Repr

def Unknown.message (e : Unknown) : String :=
  "Unknown dialect '" ++ e.name ++ "' (expected 'react' or 'vue')"

/-- The dialect of a name, the case of ASCII letters aside. -/
def ofName? (s : String) : Except Unknown Dialect :=
  match Text.asciiLowercase s with
  | "react" | "jsx" => .ok .react
  | "vue" | "sfc" => .ok .vue
  | _ => .error ⟨s⟩

end Dialect
end PageBuilder.Markup
