/-
  Pages of help.

  Program:        `HelpPage.text`.
  Specification:  what the command is about, how it is used, and a section for each kind of thing
                  that may follow it.  A section has two columns, and its first column is as wide as
                  the longest thing in it.
-/
import PageBuilder.Text.Column

namespace PageBuilder

/-- A page: things that may follow the command stand with what they are for. -/
structure HelpPage where
  about : String
  /-- The words of a use. -/
  usage : List String
  commands : List (String × String)
  arguments : List (String × String)
  options : List (String × String)
deriving DecidableEq, Repr

namespace HelpPage

/-- How wide the first column is. -/
def width (rows : List (String × String)) : Nat := rows.foldl (fun n r => max n r.1.length) 0

/-- A row of a section. -/
def row (width : Nat) (r : String × String) : String :=
  "  " ++ Text.padRight width r.1 ++ "  " ++ r.2

/-- A section with a title, if there is anything in it. -/
def titled? (title : String) (rows : List (String × String)) : Option String :=
  if rows.isEmpty then none
  else some (String.intercalate "\n" ((title ++ ":") :: rows.map (row (width rows))))

/-- **The text** of a page. -/
def text (p : HelpPage) : String :=
  String.intercalate "\n\n" <|
    [p.about, "Usage: " ++ String.intercalate " " p.usage] ++
      [titled? "Commands" p.commands, titled? "Arguments" p.arguments,
        titled? "Options" p.options].filterMap id

example :
    text ⟨"Sort.", ["sort", "<FILE>"], [], [("<FILE>", "What to sort")], [("-r", "Reverse")]⟩ =
      "Sort.\n\nUsage: sort <FILE>\n\nArguments:\n  <FILE>  What to sort\n\n" ++
        "Options:\n  -r  Reverse" := by
  decide +kernel

end HelpPage
end PageBuilder
