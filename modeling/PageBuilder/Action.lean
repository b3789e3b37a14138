/-
  Actions: what a click, a hover or a blur does.

  Programs:       `ofJson?`, `toJson`, `valid?`.
  Specification:  an action is an object tagged by its `type`, or an array that starts with the tag
                  and goes on with the fields in order.  Every field may be missing, so that half
                  configured actions load; `valid?` says whether one can run.
-/
import PageBuilder.ListItem
import PageBuilder.Choice

namespace PageBuilder

/-- An action as configured. -/
inductive Action where
  /-- Flip a variable between true and false. -/
  | toggle (target : Option String)
  /-- Overwrite a variable. -/
  | set (target : Option String) (value : Option Json)
  /-- Show a message. -/
  | alert (message : Option String)
  /-- Fetch a URL and perhaps keep what comes back. -/
  | apiRequest (url : Option String) (method : Option HttpMethod) (target : Option String)
deriving DecidableEq

/-- An action that can run. -/
inductive ValidAction where
  | toggle (target : String)
  | set (target : String) (value : Json)
  | alert (message : String)
  | apiRequest (url : String) (method : HttpMethod) (target : Option String)
deriving DecidableEq

namespace Action

/-! ## On the wire -/

def typeName : Action → String
  | .toggle _ => "toggle"
  | .set _ _ => "set"
  | .alert _ => "alert"
  | .apiRequest _ _ _ => "apiRequest"

/-- The fields of an action of some type, in order. -/
def fieldNames? : String → Option (List String)
  | "toggle" => some ["target"]
  | "set" => some ["target", "value"]
  | "alert" => some ["value"]
  | "apiRequest" => some ["url", "method", "target"]
  | _ => none

/-- The tag and the fields of an action given as an object or as an array. -/
def tagged? : Json → Option (String × Json.Fields)
  | .object fs => (Json.requiredString? fs "type").map fun t => (t, fs)
  | .array (.string t :: xs) => do
    let names ← fieldNames? t
    let fs ← Json.record? names (.array xs)
    some (t, fs)
  | _ => none

/-- A method, which beside its name may be a field of that name that holds nothing. -/
def methodOfJson? : Json → Option HttpMethod
  | .object [(k, .object [])] => Choice.ofName? k
  | v => Choice.ofJson? v

/-- A method that may be missing or `null`; the outer `none` is an error. -/
def method? (fs : Json.Fields) : Option (Option HttpMethod) :=
  match Entries.get? fs "method" with
  | none | some .null => some none
  | some v => (methodOfJson? v).map some

/-- A value of any shape; `null` counts as missing. -/
def anyValue (fs : Json.Fields) (k : String) : Option Json :=
  (Entries.get? fs k).filter fun v => !v.isNull

/-- **The reader**. -/
def ofJson? (v : Json) : Option Action := do
  let (t, fs) ← tagged? v
  match t with
  | "toggle" => (Json.optionalString? fs "target").map .toggle
  | "set" => (Json.optionalString? fs "target").map fun target => .set target (anyValue fs "value")
  | "alert" => (Json.optionalString? fs "value").map .alert
  | "apiRequest" => do
    let url ← Json.optionalString? fs "url"
    let method ← method? fs
    let target ← Json.optionalString? fs "target"
    some (.apiRequest url method target)
  | _ => none

/-- The fields of an action that are set, in order. -/
def fields : Action → Json.Fields
  | .toggle target => Json.setField "target" target
  | .set target value => Json.setField "target" target ++ (value.map fun v => ("value", v)).toList
  | .alert message => Json.setField "value" message
  | .apiRequest url method target =>
    Json.setField "url" url ++ (method.map fun m => ("method", Choice.toJson m)).toList
      ++ Json.setField "target" target

/-- **The writer**. -/
def toJson (a : Action) : Json := .object (("type", .string a.typeName) :: a.fields)

/-! ## Running -/

/-- Message of an alert that has none. -/
def defaultMessage : String := "Alert!"

/-- A text that is there and not empty. -/
def present (s : Option String) : Option String := s.filter fun t => t != ""

/-- `null` and the empty string. -/
def isBlankValue : Json → Bool
  | .null => true
  | .string s => s == ""
  | _ => false

/-- **The check**: an action that can run, or nothing if a required field is missing.  Empty strings
count as missing, and so does an empty value to set. -/
def valid? : Action → Option ValidAction
  | .toggle target => (present target).map .toggle
  | .set target value => do
    let value ← value.filter fun v => !isBlankValue v
    let target ← present target
    some (.set target value)
  | .alert message => some (.alert ((present message).getD defaultMessage))
  | .apiRequest url method target => do
    let url ← present url
    some (.apiRequest url (method.getD .get) (present target))

/-- Equal actions, as an edit means it: a value to set compares as a value. -/
def same : Action → Action → Bool
  | .set t (some v), .set u (some w) => t == u && v.same w
  | a, b => decide (a = b)

end Action
end PageBuilder
