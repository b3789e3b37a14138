/-
  Commands from the words of a command line.

  Program:        `Invocation.ofWords`.
  Specification:  the first word that is no switch is the name of a command, and the words behind it
                  have the form of that command; some names are followed by a further one.  Of a path
                  given before and behind the name of the command the one behind counts.
-/
import PageBuilder.Command.Arguments
import PageBuilder.Command.Basic

namespace PageBuilder
namespace CommandLine

/-! ## Commands -/

def flag (name about : String) : Switch := ⟨name, none, .nothing, "", about⟩
def option (name valueName about : String) : Switch := ⟨name, none, .text, valueName, about⟩

/-- A place for any word. -/
def slot (name about : String) : Slot := ⟨name, about, []⟩

/-- A command with the words and switches it takes, and how it is made of them; `none` if a word is
missing. -/
structure Form where
  about : String
  slots : List Slot := []
  switches : List Switch := []
  make : Given → Option Command

/-- What stands behind a name: the form of a command, or further names. -/
inductive Branch where
  | form (f : Form)
  | group (about : String) (forms : List (String × Form))

def Branch.about : Branch → String
  | .form f => f.about
  | .group about _ => about

/-- The forms of the commands on projects. -/
def projectForms : List (String × Form) :=
  [("save",
    { about := "Save the working schema under a name"
      slots := [slot "NAME" ""]
      make := fun g =>
        match g.words with
        | [name] => some (.projects (.save name))
        | _ => none }),
   ("list",
    { about := "List saved projects"
      make := fun _ => some (.projects .list) }),
   ("show",
    { about := "Print a saved project's schema"
      slots := [slot "ID" ""]
      make := fun g =>
        match g.words with
        | [id] => some (.projects (.show id))
        | _ => none }),
   ("load",
    { about := "Replace the working schema with a saved project"
      slots := [slot "ID" ""]
      make := fun g =>
        match g.words with
        | [id] => some (.projects (.load id))
        | _ => none })]

/-- The form of a command that changes a page by an interaction. -/
def fireForm : Form where
  about := "Dispatch an interaction event in interactive mode and persist the state"
  slots := [slot "ID" "", ⟨"EVENT", "", (Choice.all (α := EventName)).map Choice.name⟩]
  switches := [option "value" "VALUE" "New value for `change`, as JSON or text"]
  make := fun g =>
    match g.words with
    | [id, event] => (Choice.ofName? event).map fun e => .fire id e (g.value? "value")
    | _ => none

/-- The form of the command that gives a page as source text. -/
def exportForm : Form where
  about := "Export the working schema as framework source"
  switches :=
    [⟨"dialect", some 'd', .text, "DIALECT", "react (jsx) or vue (sfc) [default: react]"⟩,
     ⟨"out", some 'o', .path, "FILE", "Write to a file instead of stdout"⟩,
     option "component" "NAME" "Name of the exported React component"]
  make := fun g =>
    some (.emit ((g.value? "dialect").getD "react") (g.value? "out") (g.value? "component"))

/-- **The commands** by their names. -/
def branches : List (String × Branch) :=
  [("init", .form
    { about := "Write the starter dashboard as the working schema"
      switches := [flag "force" "Overwrite an existing schema"]
      make := fun g => some (.init (g.has "force")) }),
   ("templates", .form
    { about := "List the built-in templates"
      make := fun _ => some .templates }),
   ("add", .form
    { about := "Add a component (or a template with --template) under a container"
      slots := [slot "KIND" "Component kind, e.g. Button, or a template id with --template"]
      switches :=
        [option "parent" "ID" "Container to add under (defaults to the root)", flag "template" ""]
      make := fun g =>
        match g.words with
        | [what] => some (.add what (g.value? "parent") (g.has "template"))
        | _ => none }),
   ("set", .form
    { about := "Set one prop on a node; the value is parsed as JSON, else taken as text"
      slots := [slot "ID" "", slot "KEY" "", slot "VALUE" ""]
      make := fun g =>
        match g.words with
        | [id, key, value] => some (.set id key value)
        | _ => none }),
   ("delete", .form
    { about := "Delete a node and its subtree"
      slots := [slot "ID" ""]
      make := fun g =>
        match g.words with
        | [id] => some (.delete id)
        | _ => none }),
   ("export", .form exportForm),
   ("preview", .form
    { about := "Print the rendered tree as an outline"
      switches :=
        [flag "interactive" "Resolve visibility and bindings against the saved runtime state",
         option "select" "ID" ""]
      make := fun g => some (.preview (g.has "interactive") (g.value? "select")) }),
   ("fire", .form fireForm),
   ("projects", .group "Manage saved projects" projectForms),
   ("generate-items", .form
    { about := "Fill a DataList with AI-generated items"
      slots := [slot "ID" "DataList node id", slot "PROMPT" ""]
      make := fun g =>
        match g.words with
        | [id, prompt] => some (.generate id prompt)
        | _ => none })]

/-! ## Levels -/

/-- The version. -/
def versionText : String := "orion 0.1.0"

/-- The command that prints a page of help. -/
def helpCommand : String × String :=
  ("help", "Print this message or the help of the given subcommand(s)")

/-- The level behind the name of the program. -/
def topLevel : Level where
  path := ["orion"]
  about := "Schema-driven UI composer: edit, preview, run and export component trees"
  commands := branches.map (fun e => (e.1, e.2.about)) ++ [helpCommand]
  hasVersion := true

/-- The level behind the name of a command. -/
def Form.level (path : List String) (f : Form) : Level where
  path := path
  about := f.about
  slots := f.slots
  switches := f.switches

/-- The level behind a name that is followed by a further one. -/
def groupLevel (path : List String) (about : String) (forms : List (String × Form)) : Level where
  path := path
  about := about
  commands := forms.map (fun e => (e.1, e.2.about)) ++ [helpCommand]

/-- The page of the command that prints pages. -/
def helpOfHelp (path : List String) : HelpPage where
  about := helpCommand.2
  usage := path ++ [helpCommand.1, "[COMMAND]..."]
  commands := []
  arguments := [("[COMMAND]...", "Print help for the subcommand(s)")]
  options := []

/-- Help on the names behind a name that is followed by further ones. -/
def groupHelp (path : List String) (about : String) (forms : List (String × Form)) :
    List String → Stop
  | [] => .help (groupLevel path about forms).page
  | [name] =>
    if name = helpCommand.1 then .help (helpOfHelp path)
    else
      match forms.lookup name with
      | some f => .help (f.level (path ++ [name])).page
      | none => .usage
  | _ => .usage

/-- **Help on names** behind the name of the program. -/
def topHelp : List String → Stop
  | [] => .help topLevel.page
  | name :: r =>
    match branches.lookup name, r with
    | some (.group about forms), r => groupHelp (topLevel.path ++ [name]) about forms r
    | some (.form f), [] => .help (f.level (topLevel.path ++ [name])).page
    | some (.form _), _ => .usage
    | none, r =>
      if name = helpCommand.1 ∧ r = [] then .help (helpOfHelp topLevel.path) else .usage

/-! ## Reading -/

/-- Read the words of a command. -/
def Form.read (f : Form) (path : List String) (ws : List String) : Except Stop Invocation := do
  let (g, _) ← (f.level path).read none {} ws
  match f.make g with
  | some c => .ok ⟨g.value? configSwitch.name, c⟩
  | none => .error .usage

/-- A command with what was given in front of its name, which is judged after the command. -/
def behind (g : Given) (inner : Except Stop Invocation) : Except Stop Invocation := do
  let i ← inner
  let g ← g.settled
  return { i with config := i.config.or (g.value? configSwitch.name) }

/-- Read a further name, and the words behind it. -/
def readGroup (path : List String) (about : String) (forms : List (String × Form))
    (ws : List String) : Except Stop Invocation := do
  let (g, rest) ← (groupLevel path about forms).read none {} ws
  match rest with
  | [] => .error .usage
  | name :: r =>
    if name = helpCommand.1 then .error (groupHelp path about forms r)
    else
      match forms.lookup name with
      | some f => behind g (f.read (path ++ [name]) r)
      | none => .error .usage

end CommandLine

open CommandLine

/-- **The command** of some words. -/
def Invocation.ofWords (ws : List String) : Except Stop Invocation := do
  let (g, rest) ← topLevel.read none {} ws
  match rest with
  | [] => .error .usage
  | name :: r =>
    let path := topLevel.path ++ [name]
    if name = helpCommand.1 then .error (topHelp r)
    else
      match branches.lookup name with
      | some (.form f) => behind g (f.read path r)
      | some (.group about forms) => behind g (readGroup path about forms r)
      | none => .error .usage

example : (Invocation.ofWords ["init"]).toOption = some ⟨none, .init false⟩ := by decide +kernel
example : (Invocation.ofWords ["--config", "a", "delete", "x", "--config=b"]).toOption =
    some ⟨some "b", .delete "x"⟩ := by decide +kernel
example : (Invocation.ofWords ["fire", "x", "boom", "--help"]) matches .error .usage := by
  decide +kernel

end PageBuilder
