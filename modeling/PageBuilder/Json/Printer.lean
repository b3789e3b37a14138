/-
  JSON values as text.

  Program:        `write style level v` — the text of a value whose line starts at `level`.
  Specification:  the compact style puts nothing between tokens; the pretty style starts every item
                  of a non-empty array or object on a line of its own, two blanks deeper, and writes
                  a blank after a colon.  Keys keep their order; strings escape only quotes,
                  backslashes and control characters.
  Crux:           both styles are ONE printer that differs in what it writes between tokens, and
                  that is always JSON white space, so a reader sees the same tokens.
-/
import PageBuilder.Json.Basic

namespace PageBuilder.Json

/-! ## Strings -/

/-- A hexadecimal digit, in lower case. -/
def hexDigit (n : Nat) : Char := Nat.digitChar n

/-- How a character stands inside quotes. -/
def escapeChar (c : Char) : List Char :=
  if c = '"' then ['\\', '"']
  else if c = '\\' then ['\\', '\\']
  else if c = '\n' then ['\\', 'n']
  else if c = '\r' then ['\\', 'r']
  else if c = '\t' then ['\\', 't']
  else if c = '\x08' then ['\\', 'b']
  else if c = '\x0c' then ['\\', 'f']
  else if c.toNat < 32 then ['\\', 'u', '0', '0', hexDigit (c.toNat / 16), hexDigit (c.toNat % 16)]
  else [c]

/-- A string in quotes. -/
def quoted (s : List Char) : List Char := '"' :: (s.flatMap escapeChar ++ ['"'])

/-! ## Values -/

/-- What stands between tokens. -/
structure Style where
  /-- Before an item, or before the closing bracket, at a level. -/
  lineBreak : Nat → List Char
  /-- After the colon of a field. -/
  afterColon : List Char

/-- Nothing between tokens. -/
def Style.compact : Style := ⟨fun _ => [], []⟩

/-- A line for every item, two blanks deeper than its bracket. -/
def Style.pretty : Style := ⟨fun level => '\n' :: List.replicate (2 * level) ' ', [' ']⟩

mutual
/-- **The printer**: the text of a value that starts at a level. -/
def write (s : Style) (level : Nat) : Json → List Char
  | .null => ['n', 'u', 'l', 'l']
  | .bool true => ['t', 'r', 'u', 'e']
  | .bool false => ['f', 'a', 'l', 's', 'e']
  | .number n => n.text?.getD ['n', 'u', 'l', 'l']
  | .string t => quoted t.toList
  | .array [] => ['[', ']']
  | .array (x :: xs) =>
    '[' :: (s.lineBreak (level + 1) ++ write s (level + 1) x ++ writeItems s (level + 1) xs
      ++ s.lineBreak level ++ [']'])
  | .object [] => ['{', '}']
  | .object ((k, v) :: fs) =>
    '{' :: (s.lineBreak (level + 1) ++ quoted k.toList ++ ':' :: (s.afterColon
      ++ write s (level + 1) v ++ writeFields s (level + 1) fs ++ s.lineBreak level ++ ['}']))

/-- The items after the first, each behind a comma. -/
def writeItems (s : Style) (level : Nat) : List Json → List Char
  | [] => []
  | x :: xs => ',' :: (s.lineBreak level ++ write s level x ++ writeItems s level xs)

/-- The fields after the first, each behind a comma. -/
def writeFields (s : Style) (level : Nat) : List (String × Json) → List Char
  | [] => []
  | (k, v) :: fs =>
    ',' :: (s.lineBreak level ++ quoted k.toList ++ ':' :: (s.afterColon ++ write s level v
      ++ writeFields s level fs))
end

/-- The text of a value on one line, without blanks. -/
def compact (v : Json) : String := String.ofList (write .compact 0 v)

/-- The text of a value over several lines. -/
def pretty (v : Json) : String := String.ofList (write .pretty 0 v)

example : write .compact 0 (.object [("a", .array [.null, .bool true]), ("b", .object [])])
    = "\x7b\"a\":[null,true],\"b\":\x7b\x7d\x7d".toList := by decide
example : write .pretty 0 (.array [.null]) = "[\n  null\n]".toList := by decide

end PageBuilder.Json
