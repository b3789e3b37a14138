/-
  Values as literals of the script language.

  Programs:       `literal quote v`, `numberText x`.
  Specification:  a literal is the compact JSON text of the value, except that a binary64 number that
                  is whole and below `10 ^ 15` drops its fraction, and that strings may stand in
                  single quotes instead, with every double quote written as a reference, so that the
                  literal fits inside a double-quoted attribute.
-/
import PageBuilder.Json.Printer

namespace PageBuilder.Markup

/-- What strings stand in. -/
inductive Quote where
  | double
  | single
deriving DecidableEq, Repr

/-- A character inside single quotes. -/
def singleCharacter (c : Char) : List Char :=
  if c = '\\' then ['\\', '\\']
  else if c = '\'' then ['\\', '\'']
  else if c = '"' then ['&', 'q', 'u', 'o', 't', ';']
  else if c = '\n' then ['\\', 'n']
  else if c = '\r' then ['\\', 'r']
  else if c = '\t' then ['\\', 't']
  else [c]

/-- A string in quotes. -/
def stringLiteral : Quote → List Char → List Char
  | .double, s => Json.quoted s
  | .single, s => '\'' :: (s.flatMap singleCharacter ++ ['\''])

/-- Whole numbers from here on keep their notation. -/
def wholeBound : Nat := 1000000000000000

/-- A binary64 number that is whole and not too large drops its fraction. -/
def dropFraction : Json.Number → Json.Number
  | .whole i => .whole i
  | .binary x =>
    match x.wholeBelow? wholeBound with
    | some i => .whole i
    | none => .binary x

/-- A number; one that is not finite has no notation and stands as zero. -/
def numberLiteral (n : Json.Number) : List Char := (dropFraction n).text?.getD ['0']

mutual
/-- **The literal** of a value. -/
def literal (q : Quote) : Json → List Char
  | .null => ['n', 'u', 'l', 'l']
  | .bool true => ['t', 'r', 'u', 'e']
  | .bool false => ['f', 'a', 'l', 's', 'e']
  | .number n => numberLiteral n
  | .string s => stringLiteral q s.toList
  | .array [] => ['[', ']']
  | .array (x :: xs) => '[' :: (literal q x ++ literalItems q xs ++ [']'])
  | .object [] => ['{', '}']
  | .object ((k, v) :: fs) =>
    '{' :: (stringLiteral q k.toList ++ ':' :: (literal q v ++ literalFields q fs ++ ['}']))

/-- The items after the first, each behind a comma. -/
def literalItems (q : Quote) : List Json → List Char
  | [] => []
  | x :: xs => ',' :: (literal q x ++ literalItems q xs)

/-- The fields after the first, each behind a comma. -/
def literalFields (q : Quote) : List (String × Json) → List Char
  | [] => []
  | (k, v) :: fs =>
    ',' :: (stringLiteral q k.toList ++ ':' :: (literal q v ++ literalFields q fs))
end

/-- A number as the page shows it; what is not finite shows as zero. -/
def numberText (x : Binary64) : String := String.ofList (numberLiteral (.binary x))

example : literal .single (.array [.string "B's"]) = "['B\\'s']".toList := by decide +kernel

end PageBuilder.Markup
