/-
  What the commands do.

  Program:        `Invocation.program`.
  Specification:  a command reads the files it needs, works on them, writes back, and prints; it
                  stops at the first thing that goes wrong, and what was written before stays.
  Crux:           the page, the variables and the projects are plain values in between; whatever
                  comes from the system comes through `Program`.
-/
import PageBuilder.Command.Forms
import PageBuilder.Command.Program
import PageBuilder.Config
import PageBuilder.Export.Document
import PageBuilder.Generation
import PageBuilder.Interpreter.Basic
import PageBuilder.Project.Calendar
import PageBuilder.Variables.Text
import PageBuilder.View.Outline

namespace PageBuilder

namespace Program

/-! ## Files -/

/-- Read a file. -/
def readFile (path : String) : Program (Except FileError String) := request (.read path)

/-- Print a line. -/
def print (line : String) : Program Unit := request (.print line)

/-- Write a file, and make the directories it is to stand in. -/
def writeFile (path text : String) (notMade : String → FileError → Failure)
    (notWritten : FileError → Failure) : Program Unit := do
  match Path.directory? path with
  | some dir => accept (notMade dir) (← request (.make dir))
  | none => pure ()
  accept notWritten (← request (.write path text))

/-- Write a file of the page or its state. -/
def writeText (path text : String) : Program Unit :=
  writeFile path text (fun dir _ => .notMade dir) fun _ => .notWritten path

/-! ## Configuration -/

/-- Where the configuration is looked for. -/
def configFile : String := "orion.toml"

/-- The environment variable that may hold the path of the configuration. -/
def configVariable : String := "ORION_CONFIG"

/-- The configuration in a file. -/
def configIn (path : String) : Program Config := do
  let text ← accept (fun _ => .configUnreadable path) (← readFile path)
  require (.malformed path) (Config.ofText? text)

/-- **The configuration**: from the path given, or else from the one in the environment; without
either from the usual file, if there is one. -/
def loadConfig (given : Option String) : Program Config := do
  let fromEnvironment ← request (.environment configVariable)
  match given.or fromEnvironment with
  | some path => configIn path
  | none => if ← request (.exists configFile) then configIn configFile else pure {}

/-! ## The page and its variables -/

/-- **The page** in a file. -/
def loadPage (path : String) : Program Node := do
  let text ← accept (fun _ => .pageUnreadable path) (← readFile path)
  require (.malformed path) (Node.ofText? text)

def savePage (path : String) (page : Node) : Program Unit := writeText path page.pretty

/-- **The variables** in a file; none if it is missing. -/
def loadState (path : String) : Program Variables := do
  match ← readFile path with
  | .error .missing => pure []
  | .error _ => failed (.stateUnreadable path)
  | .ok text => require (.malformed path) (Variables.ofText? text)

def saveState (path : String) (vs : Variables) : Program Unit := writeText path vs.text

/-- A session over the page in a file. -/
def openSession (c : Config) : Program Session := do
  pure (.start (← loadPage c.storage.page) Builtin.registry)

/-- Do what may fail in a session. -/
def edited {α : Type} : Except SessionError α → Program α := accept .session

/-- Select a node that has to be there. -/
def selecting (s : Session) : Option String → Program Session
  | none => pure s
  | some id => if s.tree.contains id then pure (s.select id) else failed (.noNode id)

/-! ## Projects -/

/-- **The projects** in a file. -/
def loadProjects (path : String) : Program (List Project) := do
  match ← readFile path with
  | .error .missing => pure []
  | .error e => failed (.projectsInaccessible path e)
  | .ok text => accept (fun _ => .projectsCorrupt path) (Project.listOfFile (.text text))

def saveProjects (path : String) (ps : List Project) : Program Unit :=
  writeFile path (Project.listText ps) (fun _ => .projectsInaccessible path)
    (.projectsInaccessible path)

end Program

/-! ## Values -/

/-- A value from the command line: JSON if it spells any, and otherwise the text itself. -/
def Json.ofArgument (s : String) : Json := (Json.ofText? s).getD (.string s)

/-- The line of a template. -/
def Template.line (t : Template) : String :=
  Text.padRight 12 t.id ++ " " ++ Text.padRight 16 t.name ++ " " ++ toString t.schema.count
    ++ " nodes"

/-- The line of a project. -/
def Project.line (p : Project) : String :=
  Text.padRight 16 p.id ++ " " ++ Text.padRight 17 ((Calendar.text? p.savedAt).getD "") ++ " "
    ++ Text.padLeft 4 (toString p.schema.count) ++ " nodes  " ++ p.name

/-- What is said of an action; a request left as it is changes nothing. -/
def Outcome.line : Outcome → String
  | .applied => "applied"
  | .notified message => "alert: " ++ message
  | .inert => "action is incomplete; nothing done"
  | .pending r => r.url ++ " -> no change"

namespace Command

open Program

/-! ## Edits -/

/-- Write the starting page. -/
def startPage (c : Config) (force : Bool) : Program Unit := do
  let path := c.storage.page
  if (← request (.exists path)) && !force then failed (.pageExists path)
  savePage path Builtin.startingPage
  print ("Wrote " ++ path ++ " (" ++ toString Builtin.startingPage.count ++ " nodes)")

/-- Print the templates. -/
def listTemplates : Program Unit :=
  Builtin.registry.templates.forM fun t => print t.line

/-- The edit that adds a component or a copy of a template. -/
def additionOf (what : String) (ofTemplate : Bool) : Program Session.Edit :=
  if ofTemplate then pure (.template what)
  else do
    let k ← require (.unknownKind what) (Choice.ofName? what)
    pure (.add (some k))

/-- How many suffixes an addition may need: those of ids that are taken, and one for every node. -/
def suffixesFor (s : Session) (what : String) : Nat :=
  s.tree.count + ((Entries.get? s.templates what).map (·.schema.count)).getD 1

/-- Add a component, or a copy of a template. -/
def addition (c : Config) (what : String) (parent : Option String) (ofTemplate : Bool) :
    Program Unit := do
  let s ← selecting (← openSession c) parent
  let e ← additionOf what ofTemplate
  let supply ← request (.offer (suffixesFor s what))
  let a ← edited (s.edit supply e)
  savePage c.storage.page a.tree
  request (.keep (supply.length - a.supply.length))
  print (a.inserted.getD "")

/-- Do an edit that adds nothing. -/
def change (c : Config) (s : Session) (e : Session.Edit) : Program Unit := do
  let a ← edited (s.edit [] e)
  savePage c.storage.page a.tree

/-- Set a prop. -/
def setProp (c : Config) (id key value : String) : Program Unit := do
  change c (← openSession c) (.apply (.setProps id [(key, .ofArgument value)]))

/-- Delete a node. -/
def deletion (c : Config) (id : String) : Program Unit := do
  change c (← selecting (← openSession c) (some id)) .deleteSelected

/-! ## Views -/

/-- Print the page as source text, or write it to a file. -/
def emission (c : Config) (dialect : String) (out component : Option String) : Program Unit := do
  let d ← accept .unknownDialect (Markup.Dialect.ofName? dialect)
  let dflt : Export.Options := {}
  let page ← loadPage c.storage.page
  let source := Export.document d { dflt with component := component.getD dflt.component } page
  match out with
  | some path => accept (fun _ => .notWritten path) (← request (.write path source))
  | none => print source

/-- Print the outline of the page. -/
def outline (c : Config) (interactive : Bool) (selected : Option String) : Program Unit := do
  let s ← selecting (← openSession c) selected
  let s := if interactive then { s with mode := .interactive } else s
  let vs ← loadState c.storage.state
  match s.render? vs with
  | some v => print v.outline
  | none => print "(root is hidden)"

/-! ## Interactions -/

/-- The interaction of a name; a change needs its value. -/
def event (name : EventName) (value : Option String) : Program Event :=
  match name with
  | .select => pure .select
  | .click => pure (.fire .click)
  | .hover => pure (.fire .hover)
  | .blur => pure (.fire .blur)
  | .change => do
    let v ← require .valueMissing value
    pure (.change (.ofArgument v))

/-- The call that a request is sent as. -/
def callOf (o : ClientOptions) (r : Request) : Call where
  method := r.method
  url := r.url
  userAgent := some o.userAgent
  key := none
  body := none
  timeout := o.timeout

/-- Tell what an interaction did, and send its request if there is one; the result holds the
variables afterwards. -/
def told (c : Config) (vs : Variables) : EventOutcome → Program Variables
  | .selected id => do
    print ("selected " ++ id)
    pure vs
  | .ignored => do
    print "no effect"
    pure vs
  | .written name => do
    print ("wrote " ++ name)
    pure vs
  | .action (.pending r) => do
    let reply ← request (.exchange (callOf c.network.client r))
    match r.resolve (reply.map (·.body)) vs with
    | (vs, true) =>
      print (r.url ++ " -> " ++ r.target.getD "")
      pure vs
    | (vs, false) =>
      print (Outcome.pending r).line
      pure vs
  | .action o => do
    print o.line
    pure vs

/-- Let an interaction happen, and keep the variables. -/
def interaction (c : Config) (id : String) (name : EventName) (value : Option String) :
    Program Unit := do
  let page ← loadPage c.storage.page
  let vs ← loadState c.storage.state
  if !Call.isHeader c.network.client.userAgent then failed .badUserAgent
  let e ← event name value
  let (vs, o) := e.handle page .interactive id vs
  let vs ← told c vs o
  saveState c.storage.state vs

/-! ## Projects -/

/-- Do what is to be done with the saved projects. -/
def project (c : Config) : ProjectCommand → Program Unit
  | .save name => do
    let s ← openSession c
    let ps ← loadProjects c.storage.projects
    let supply ← request (.offer 1)
    let p : Project :=
      ⟨Project.generatedId (supply.headD ""), name, s.tree, ← request .clock⟩
    saveProjects c.storage.projects (ps ++ [p])
    request (.keep 1)
    print p.id
  | .list => do
    (← loadProjects c.storage.projects).forM fun p => print p.line
  | .show id => do
    let ps ← loadProjects c.storage.projects
    let p ← require (.noProject id) (Project.find? ps id)
    print p.schema.pretty
  | .load id => do
    let s ← openSession c
    let ps ← loadProjects c.storage.projects
    let d := s.perform (.load id (.ok (Project.find? ps id)))
    let reply ← edited d.reply
    savePage c.storage.page d.session.tree
    let name := match reply with
      | .loaded p => p.name
      | _ => ""
    print ("Loaded '" ++ name ++ "' into " ++ c.storage.page)

/-! ## Generated rows -/

/-- The call that asks a model for rows. -/
def modelCall (c : ModelConfig) (key prompt : String) : Call where
  method := .post
  url := Generation.url (c.endpoint.getD Generation.defaultEndpoint)
    (c.model.getD Generation.defaultModel)
  userAgent := none
  key := some key
  body := some (Generation.requestBody prompt)
  timeout := 60000

/-- The rows of a reply; none if it tells of an error. -/
def rowsOf? (r : Reply) : Option (List ListItem) :=
  if r.isError then none
  else (Json.ofText? r.body).bind Generation.rowsOfReply?

/-- Ask a model for rows; a key that cannot be sent gets none. -/
def ask (c : ModelConfig) (key prompt : String) : Program (Option (List ListItem)) := do
  if Call.isHeader key then
    let reply ← request (.exchange (modelCall c key prompt))
    pure (reply.bind rowsOf?)
  else pure none

/-- Fill a data list.  The model is asked only if rows are all that is missing. -/
def generation (c : Config) (id prompt : String) : Program Unit := do
  let name := c.model.keyVariable
  let key ← require (.keyMissing name) (← request (.environment name))
  let s ← openSession c
  let rows ← match s.fill id none with
    | .error .generation => ask c.model key prompt
    | _ => pure none
  let d := s.perform (.fill id rows)
  let _ ← edited d.reply
  savePage c.storage.page d.session.tree
  print ("Filled " ++ id ++ " with " ++ toString (rows.getD []).length ++ " items")

/-- **A command** under a configuration. -/
def program (c : Config) : Command → Program Unit
  | .init force => startPage c force
  | .templates => listTemplates
  | .add what parent ofTemplate => addition c what parent ofTemplate
  | .set id key value => setProp c id key value
  | .delete id => deletion c id
  | .emit dialect out component => emission c dialect out component
  | .preview interactive selected => outline c interactive selected
  | .fire id name value => interaction c id name value
  | .projects p => project c p
  | .generate id prompt => generation c id prompt

end Command

/-- The program of a command, under the configuration it is to use. -/
def Invocation.program (i : Invocation) : Program Unit := do
  let c ← Program.loadConfig i.config
  i.command.program c

/-- **The program** of the words of a command line; none if they make no command. -/
def Program.ofWords? (ws : List String) : Option (Program Unit) :=
  match Invocation.ofWords ws with
  | .ok i => some i.program
  | .error (.help page) => some (print page.text)
  | .error .version => some (print CommandLine.versionText)
  | .error .usage => none

end PageBuilder
