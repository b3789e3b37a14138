/-
  One line of a configuration text, as tokens.

  Program:        `tokens?`.
  Specification:  words are made of the characters of bare keys and of plus signs; strings stand in
                  double quotes, with escapes, or in single quotes, without; a comment runs to the
                  end of the line.  Blanks are tokens of their own, since a number holds none.
-/
import PageBuilder.Json.Source
import PageBuilder.Text.Split

namespace PageBuilder.Toml

/-- A token of a line. -/
inductive Token where
  | word (cs : List Char)
  | string (s : String)
  | blank
  | dot
  | comma
  | equals
  | openBrace
  | closeBrace
  | openBracket
  | closeBracket
deriving DecidableEq, Repr

/-- Characters of keys without quotes. -/
def isBare (c : Char) : Bool := c.isAlphanum || c == '_' || c == '-'

/-- Characters that may stand in strings and comments as they are. -/
def isPlain (c : Char) : Bool := c == '\t' || (32 ≤ c.toNat && c.toNat != 127)

/-- What a letter after a backslash stands for. -/
def escape? : Char → Option Char
  | 'b' => some '\x08'
  | 't' => some '\t'
  | 'n' => some '\n'
  | 'f' => some '\x0c'
  | 'r' => some '\r'
  | '"' => some '"'
  | '\\' => some '\\'
  | _ => none

/-- The character of a code point, if it has one. -/
def scalar? (n : Nat) : Option Char := if n.isValidChar then some (Char.ofNat n) else none

/-- The place in a line: outside of strings, with the word so far, or inside of a string; what was
read has its last character first. -/
inductive Place where
  | outside (word : List Char)
  | double (read : List Char)
  | single (read : List Char)

/-- A token in front of others, the word that ends before it first. -/
def ended (word : List Char) (ts : List Token) : List Token :=
  if word.isEmpty then ts else .word word.reverse :: ts

/-- A token of one character. -/
def mark? : Char → Option Token
  | ' ' => some .blank
  | '\t' => some .blank
  | '.' => some .dot
  | ',' => some .comma
  | '=' => some .equals
  | '{' => some .openBrace
  | '}' => some .closeBrace
  | '[' => some .openBracket
  | ']' => some .closeBracket
  | _ => none

/-- The tokens from a place on. -/
def tokensFrom? : Place → List Char → Option (List Token)
  | .outside w, [] => some (ended w [])
  | .outside w, c :: r =>
    if isBare c || c == '+' then tokensFrom? (.outside (c :: w)) r
    else if c == '"' then (tokensFrom? (.double []) r).map (ended w)
    else if c == '\'' then (tokensFrom? (.single []) r).map (ended w)
    else if c == '#' then if r.all isPlain then some (ended w []) else none
    else
      match mark? c with
      | some t => (tokensFrom? (.outside []) r).map fun ts => ended w (t :: ts)
      | none => none
  | .double _, [] => none
  | .double s, '"' :: r => (tokensFrom? (.outside []) r).map (.string (String.ofList s.reverse) :: ·)
  | .double s, '\\' :: 'u' :: a :: b :: c :: d :: r =>
    match (Json.hexValue4? a b c d).bind scalar? with
    | some x => tokensFrom? (.double (x :: s)) r
    | none => none
  | .double s, '\\' :: 'U' :: a :: b :: c :: d :: e :: f :: g :: h :: r =>
    match Json.hexValue4? a b c d, Json.hexValue4? e f g h with
    | some m, some n =>
      match scalar? (m * 65536 + n) with
      | some x => tokensFrom? (.double (x :: s)) r
      | none => none
    | _, _ => none
  | .double s, '\\' :: c :: r =>
    match escape? c with
    | some x => tokensFrom? (.double (x :: s)) r
    | none => none
  | .double s, c :: r => if isPlain c && c != '\\' then tokensFrom? (.double (c :: s)) r else none
  | .single _, [] => none
  | .single s, '\'' :: r =>
    (tokensFrom? (.outside []) r).map (.string (String.ofList s.reverse) :: ·)
  | .single s, c :: r => if isPlain c then tokensFrom? (.single (c :: s)) r else none

/-- **The tokens** of a line. -/
def tokens? (line : List Char) : Option (List Token) := tokensFrom? (.outside []) line

/-! ## Lines -/

/-- A line without the carriage return before its line feed. -/
def withoutReturn (line : List Char) : List Char :=
  if line.getLast? == some '\r' then line.dropLast else line

/-- **The lines** of a text, without what ends them; a mark of byte order in front is passed over. -/
def linesOf (text : List Char) : List (List Char) :=
  let text := match text with
    | '\uFEFF' :: r => r
    | cs => cs
  let ls := Text.split '\n' text
  ls.dropLast.map withoutReturn ++ ls.getLast?.toList

example : tokens? "a.b = 'x' # c".toList = some
    [.word ['a'], .dot, .word ['b'], .blank, .equals, .blank, .string "x", .blank] := by decide +kernel
example : tokens? "\"\\u00e9\"".toList = some [.string "é"] := by decide +kernel

end PageBuilder.Toml
