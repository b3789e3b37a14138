/-
  Choices: the closed sets of names that props and nodes are set to.

  Programs:       `ofName?`, `ofJson?`, `toJson`.
  Specification:  on the wire a choice is its name, or an object whose one field has that name and
                  holds `null`; it is always written as its name.
-/
import PageBuilder.Json.Basic

namespace PageBuilder

/-- A finite type whose values have distinct names. -/
class Choice (α : Type) where
  all : List α
  name : α → String
  /-- Every value is found by its own name. -/
  found : ∀ a, all.find? (fun b => name b == name a) = some a

namespace Choice

variable {α : Type} [Choice α]

/-- The value of a name. -/
def ofName? (s : String) : Option α := all.find? fun a => name a == s

theorem ofName?_name (a : α) : ofName? (name a) = some a := found a

theorem name_of_ofName? {s : String} {a : α} (h : ofName? s = some a) : name a = s := by
  have := List.find?_some h
  simpa using this

theorem name_injective {a b : α} (h : name a = name b) : a = b := by
  have ha := ofName?_name a
  rw [h, ofName?_name b] at ha
  simpa using ha.symm

def toJson (a : α) : Json := .string (name a)

/-- **The reader** of a choice. -/
def ofJson? : Json → Option α
  | .string s => ofName? s
  | .object [(k, .null)] => ofName? k
  | _ => none

@[simp] theorem ofJson?_toJson (a : α) : ofJson? (toJson a) = some a := ofName?_name a

end Choice

/-! ## The choices -/

/-- Looks of a button. -/
inductive ButtonVariant where
  | primary | secondary | outline | ghost | danger | success | warning
deriving DecidableEq, Repr

instance : Choice ButtonVariant where
  all := [.primary, .secondary, .outline, .ghost, .danger, .success, .warning]
  name
    | .primary => "primary"
    | .secondary => "secondary"
    | .outline => "outline"
    | .ghost => "ghost"
    | .danger => "danger"
    | .success => "success"
    | .warning => "warning"
  found a := by cases a <;> decide

/-- Looks of a badge. -/
inductive BadgeVariant where
  | default | success | warning | error | primary | secondary | outline | ghost | danger
deriving DecidableEq, Repr

instance : Choice BadgeVariant where
  all := [.default, .success, .warning, .error, .primary, .secondary, .outline, .ghost, .danger]
  name
    | .default => "default"
    | .success => "success"
    | .warning => "warning"
    | .error => "error"
    | .primary => "primary"
    | .secondary => "secondary"
    | .outline => "outline"
    | .ghost => "ghost"
    | .danger => "danger"
  found a := by cases a <;> decide

/-- Tones of an alert. -/
inductive AlertTone where
  | info | success | warning | error
deriving DecidableEq, Repr

instance : Choice AlertTone where
  all := [.info, .success, .warning, .error]
  name
    | .info => "info"
    | .success => "success"
    | .warning => "warning"
    | .error => "error"
  found a := by cases a <;> decide

/-- What a data list sorts by. -/
inductive SortKey where
  | title | value
deriving DecidableEq, Repr

instance : Choice SortKey where
  all := [.title, .value]
  name
    | .title => "title"
    | .value => "value"
  found a := by cases a <;> decide

/-- Which way a data list sorts. -/
inductive SortOrder where
  | asc | desc | none
deriving DecidableEq, Repr

instance : Choice SortOrder where
  all := [.asc, .desc, .none]
  name
    | .asc => "asc"
    | .desc => "desc"
    | .none => "none"
  found a := by cases a <;> decide

/-- How a node enters. -/
inductive Animation where
  | none | fade | slideUp | slideDown | bounce | pulse | spin
deriving DecidableEq, Repr

instance : Choice Animation where
  all := [.none, .fade, .slideUp, .slideDown, .bounce, .pulse, .spin]
  name
    | .none => "none"
    | .fade => "fade"
    | .slideUp => "slideUp"
    | .slideDown => "slideDown"
    | .bounce => "bounce"
    | .pulse => "pulse"
    | .spin => "spin"
  found a := by cases a <;> decide

/-- Utility class of an animation. -/
def Animation.cssClass? : Animation → Option String
  | .none => Option.none
  | .fade => some "animate-[fadeIn_0.5s_ease-out]"
  | .slideUp => some "animate-[slideUp_0.5s_ease-out]"
  | .slideDown => some "animate-[slideDown_0.5s_ease-out]"
  | .bounce => some "animate-bounce"
  | .pulse => some "animate-pulse"
  | .spin => some "animate-spin"

/-- Methods of a request. -/
inductive HttpMethod where
  | get | post | put | delete
deriving DecidableEq, Repr

instance : Choice HttpMethod where
  all := [.get, .post, .put, .delete]
  name
    | .get => "GET"
    | .post => "POST"
    | .put => "PUT"
    | .delete => "DELETE"
  found a := by cases a <;> decide

end PageBuilder
