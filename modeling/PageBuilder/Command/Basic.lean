/-
  Commands: what can be done with a page from the command line.
-/
import PageBuilder.Choice

namespace PageBuilder

/-- Names of interactions. -/
inductive EventName where
  | select | click | hover | blur | change
deriving DecidableEq, Repr

instance : Choice EventName where
  all := [.select, .click, .hover, .blur, .change]
  name
    | .select => "select"
    | .click => "click"
    | .hover => "hover"
    | .blur => "blur"
    | .change => "change"
  found := by intro a; cases a <;> decide

/-- What to do with the saved projects. -/
inductive ProjectCommand where
  | save (name : String)
  | list
  | «show» (id : String)
  | load (id : String)
deriving DecidableEq, Repr

/-- **A command**. -/
inductive Command where
  /-- Write the starting page. -/
  | init (force : Bool)
  | templates
  /-- Add a component, or a copy of a template, under the root or another container. -/
  | add (what : String) (parent : Option String) (ofTemplate : Bool)
  /-- Set one prop; the value is JSON, or a text. -/
  | set (id key value : String)
  | delete (id : String)
  /-- Print the page as source text, or write it to a file. -/
  | emit (dialect : String) (out : Option String) (component : Option String)
  /-- Print the outline of the page. -/
  | preview (interactive : Bool) (selected : Option String)
  /-- Let an interaction happen, and keep the variables. -/
  | fire (id : String) (event : EventName) (value : Option String)
  | projects (c : ProjectCommand)
  /-- Fill a data list with generated rows. -/
  | generate (id prompt : String)
deriving DecidableEq, Repr

/-- A command, and the path of the configuration it is to use. -/
structure Invocation where
  config : Option String
  command : Command
deriving DecidableEq, Repr

end PageBuilder
