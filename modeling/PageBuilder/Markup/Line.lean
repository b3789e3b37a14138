/-
  Lines of markup.

  A line is a depth and the pieces that stand on it: tags, text and code.  What a line says — which
  elements it opens and closes, with which attributes and around which text — is there to be read
  before a single character is written.

  Programs:       `Line.text`, `write`.
  Specification:  a line is its indentation and the spelling of its pieces; lines are joined by line
                  feeds.
-/
import PageBuilder.Markup.Attribute

namespace PageBuilder.Markup

/-- A piece of a line. -/
inductive Piece where
  /-- The start of an element. -/
  | opening (element : String) (attributes : List Attribute)
  /-- The end of an element. -/
  | closing (element : String)
  /-- A whole element with nothing in it. -/
  | selfClosing (element : String) (attributes : List Attribute)
  /-- Text between tags. -/
  | text (s : String)
  /-- Code between tags, as it stands. -/
  | code (s : String)
  /-- The start of an expression that repeats markup for every item of a literal. -/
  | repeatOpening (items : String)
  /-- The end of such an expression. -/
  | repeatClosing
deriving DecidableEq, Repr

/-- A line at a depth. -/
structure Line where
  level : Nat
  pieces : List Piece
deriving DecidableEq, Repr

/-- The spelling of a piece. -/
def Piece.spelling (d : Dialect) : Piece → String
  | .opening e as => "<" ++ e ++ Attribute.texts d as ++ ">"
  | .closing e => "</" ++ e ++ ">"
  | .selfClosing e as => "<" ++ e ++ Attribute.texts d as ++ " />"
  | .text s => escapeText s
  | .code s => s
  | .repeatOpening items => "\x7b" ++ items ++ ".map((item) => ("
  | .repeatClosing => "))\x7d"

namespace Line

/-- The line some levels further in. -/
def deeper (k : Nat) (l : Line) : Line := { l with level := l.level + k }

/-- The spelling of a line, its indentation aside. -/
def content (d : Dialect) (l : Line) : String := String.join (l.pieces.map (Piece.spelling d))

end Line

/-! ## Writing lines -/

/-- Blanks in front of a line. -/
def indentation (width level : Nat) : String :=
  String.ofList (List.replicate (width * level) ' ')

/-- Lines of text at depths, joined by line feeds. -/
def writeLines (width : Nat) (lines : List (Nat × String)) : String :=
  String.intercalate "\n" (lines.map fun l => indentation width l.1 ++ l.2)

/-- **The writer** of markup. -/
def write (d : Dialect) (width : Nat) (lines : List Line) : String :=
  writeLines width (lines.map fun l => (l.level, l.content d))

end PageBuilder.Markup
