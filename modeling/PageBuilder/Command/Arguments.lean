/-
  Switches and plain words of a command line.

  Program:        `Level.read`.
  Specification:  a word that starts with a dash is a switch, unless it is a dash alone or stands
                  behind two dashes; every switch is given once at most; a switch that takes a value
                  takes it from the same word behind an equals sign, or from the next word if that is
                  no switch.
  Crux:           the words are judged in their order, so a wrong one in front of a question for help
                  is an error, and one behind it is never seen.  Only a value that is a word of its
                  own waits: it is judged when the next word is no command.
-/
import PageBuilder.Command.Help

namespace PageBuilder

/-- Why there is no command to run. -/
inductive Stop where
  /-- The words make no command. -/
  | usage
  /-- Help was asked for. -/
  | help (page : HelpPage)
  /-- The version was asked for. -/
  | version
deriving DecidableEq, Repr

namespace CommandLine

/-! ## Switches -/

/-- What a switch takes. -/
inductive Use where
  | nothing
  | text
  /-- The path of a file, which is not empty. -/
  | path
deriving DecidableEq, Repr

/-- A switch, with its long name and perhaps a letter. -/
structure Switch where
  name : String
  letter : Option Char
  use : Use
  /-- What its value is called. -/
  valueName : String
  about : String
deriving DecidableEq, Repr

/-- A place for a plain word. -/
structure Slot where
  name : String
  about : String
  /-- The words that may be put there; all words if there are none. -/
  choices : List String
deriving DecidableEq, Repr

/-- Whether a word may be put in a place. -/
def Slot.takes (s : Slot) (w : String) : Bool := s.choices.isEmpty || s.choices.contains w

/-- What was given so far. -/
structure Given where
  /-- Words that are no switches. -/
  words : List String := []
  flags : List String := []
  values : List (String × String) := []
  /-- A switch with a value of its own word, not judged yet. -/
  late : Option (Switch × String) := none
deriving DecidableEq, Repr

namespace Given

/-- Whether a switch was given. -/
def has (g : Given) (name : String) : Bool :=
  g.flags.contains name || g.values.any fun e => e.1 == name

/-- The value of a switch. -/
def value? (g : Given) (name : String) : Option String := g.values.lookup name

/-- Give a switch that takes nothing. -/
def addFlag (g : Given) (s : Switch) : Except Stop Given :=
  if g.has s.name then .error .usage else .ok { g with flags := s.name :: g.flags }

/-- Give a switch a value. -/
def addValue (g : Given) (s : Switch) (v : String) : Except Stop Given :=
  if g.has s.name || (s.use == .path && v == "") then .error .usage
  else .ok { g with values := (s.name, v) :: g.values }

/-- Judge the value that waits. -/
def settled (g : Given) : Except Stop Given :=
  match g.late with
  | none => .ok g
  | some (s, v) => { g with late := none }.addValue s v

/-- Put a word in the next place. -/
def addWord (g : Given) (slots : List Slot) (w : String) : Except Stop Given :=
  match slots[g.words.length]? with
  | none => .error .usage
  | some s => if s.takes w then .ok { g with words := g.words ++ [w] } else .error .usage

end Given

/-! ## Words -/

/-- What a word is by its dashes. -/
inductive Word where
  | plain
  /-- Two dashes: the words behind are plain. -/
  | dashes
  /-- Two dashes and a name, perhaps with a value behind an equals sign. -/
  | long (name : String) (value : Option String)
  /-- A dash and a letter, and what follows it. -/
  | short (letter : Char) (rest : List Char)
deriving DecidableEq, Repr

/-- A name, and what stands behind its equals sign. -/
def longWord (cs : List Char) : Word :=
  let name := String.ofList (cs.takeWhile (· != '='))
  match cs.dropWhile (· != '=') with
  | [] => .long name none
  | _ :: v => .long name (some (String.ofList v))

/-- **The kind** of a word. -/
def word (w : String) : Word :=
  match w.toList with
  | ['-', '-'] => .dashes
  | '-' :: '-' :: cs => longWord cs
  | '-' :: c :: cs => .short c cs
  | _ => .plain

/-- What a switch behind a letter has in its own word. -/
def attached? : List Char → Option String
  | [] => none
  | '=' :: v => some (String.ofList v)
  | v => some (String.ofList v)

/-! ## Levels -/

/-- What may come behind some names: plain words, or one that is a command and ends the level. -/
structure Level where
  /-- The names, the first one that of the program. -/
  path : List String
  about : String
  slots : List Slot := []
  switches : List Switch := []
  /-- Commands with what they do; without any the level has no end but that of the line. -/
  commands : List (String × String) := []
  /-- Whether the version can be asked for. -/
  hasVersion : Bool := false

/-- The path of the configuration can be given at every level. -/
def configSwitch : Switch :=
  ⟨"config", none, .path, "FILE", "Config file (defaults to $ORION_CONFIG, then ./orion.toml)"⟩

def helpSwitch : Switch := ⟨"help", some 'h', .nothing, "", "Print help"⟩
def versionSwitch : Switch := ⟨"version", some 'V', .nothing, "", "Print version"⟩

/-- How a switch is shown. -/
def Switch.shown (s : Switch) : String :=
  let letter := match s.letter with
    | some c => String.ofList ['-', c, ',', ' ']
    | none => "    "
  letter ++ "--" ++ s.name ++ (if s.use == .nothing then "" else " <" ++ s.valueName ++ ">")

/-- How a place is shown. -/
def Slot.shown (s : Slot) : String := "<" ++ s.name ++ ">"

/-- What is said of a place. -/
def Slot.note (s : Slot) : String :=
  let choices := "[possible values: " ++ String.intercalate ", " s.choices ++ "]"
  if s.choices.isEmpty then s.about else if s.about = "" then choices else s.about ++ " " ++ choices

namespace Level

/-- **The page of help** of a level. -/
def page (l : Level) : HelpPage where
  about := l.about
  usage := l.path ++ ["[OPTIONS]"] ++ l.slots.map Slot.shown
    ++ (if l.commands.isEmpty then [] else ["<COMMAND>"])
  commands := l.commands
  arguments := l.slots.map fun s => (s.shown, s.note)
  options := (configSwitch :: l.switches ++ [helpSwitch]
    ++ (if l.hasVersion then [versionSwitch] else [])).map fun s => (s.shown, s.about)

/-- The switch a word names: the switch, or a question to be answered at once. -/
def named (l : Level) (name : String) : Except Stop Switch :=
  if name = helpSwitch.name then .error (.help l.page)
  else if name = versionSwitch.name ∧ l.hasVersion then .error .version
  else
    match (configSwitch :: l.switches).find? (·.name == name) with
    | some s => .ok s
    | none => .error .usage

/-- The switch of a letter. -/
def lettered (l : Level) (c : Char) : Except Stop Switch :=
  if helpSwitch.letter = some c then .error (.help l.page)
  else if versionSwitch.letter = some c ∧ l.hasVersion then .error .version
  else
    match l.switches.find? (·.letter == some c) with
    | some s => .ok s
    | none => .error .usage

/-- The switch of a word, with the value it has in the word; a plain word has none. -/
def switchOf (l : Level) : Word → Except Stop (Option (Switch × Option String))
  | .plain => .ok none
  | .dashes => .ok none
  | .long name value =>
    match l.named name, value with
    | .ok s, v => .ok (some (s, v))
    | .error .usage, _ => .error .usage
    | .error e, none => .error e
    | .error _, some _ => .error .usage
  | .short c rest => (l.lettered c).map fun s => some (s, attached? rest)

end Level

/-- Give a switch with what it has in its own word; `none` if it waits for the next one. -/
def Given.add? (g : Given) (s : Switch) : Option String → Except Stop (Option Given)
  | none => if s.use == .nothing then (g.addFlag s).map some else .ok none
  | some v => if s.use == .nothing then .error .usage else (g.addValue s v).map some

/-- **Read a level**: what was given, and the words from the one on that ends it.  `waiting` is a
switch whose value the next word is to be. -/
def Level.read (l : Level) (waiting : Option Switch) (g : Given) :
    List String → Except Stop (Given × List String)
  | [] => if waiting.isSome then .error .usage else g.settled.map fun g => (g, [])
  | w :: r =>
    match waiting, word w with
    | some s, .plain => l.read none { g with late := some (s, w) } r
    | some _, _ => .error .usage
    | none, .dashes => do
      let g ← r.foldlM (fun g w => g.addWord l.slots w) (← g.settled)
      return (g, [])
    | none, .plain =>
      if l.commands.isEmpty then do l.read none (← (← g.settled).addWord l.slots w) r
      else .ok (g, w :: r)
    | none, x => do
      let g ← g.settled
      match ← l.switchOf x with
      | none => .error .usage
      | some (s, v) =>
        match ← g.add? s v with
        | some g => l.read none g r
        | none => l.read (some s) g r

end CommandLine
end PageBuilder
