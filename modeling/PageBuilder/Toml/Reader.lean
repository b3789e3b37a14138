/-
  Reading a configuration text.

  Program:        `ofText?` — the table a text spells.
  Specification:  a line is blank, a header in brackets, or a dotted key with its value; a value is a
                  string, a number, a truth value, or a table in braces on the same line.
                  A key has fewer than 80 parts, and braces nest less than 80 deep.
  Crux:           no value goes past the end of its line, so the text is read line by line, and a
                  line by its tokens.
-/
import PageBuilder.Toml.Line
import PageBuilder.Toml.Number

namespace PageBuilder.Toml

/-! ## Keys -/

/-- How many parts a dotted key has at most, and how deep braces nest at most. -/
def depthLimit : Nat := 79

/-- Pass over blanks. -/
def skip (ts : List Token) : List Token := ts.dropWhile (· == .blank)

/-- A key without dots. -/
def simpleKey? : Token → Option String
  | .word cs => if cs.all isBare then some (String.ofList cs) else none
  | .string s => some s
  | _ => none

/-- Split before the first token of a kind. -/
def splitAt (t : Token) (ts : List Token) : List Token × List Token :=
  (ts.takeWhile (· != t), ts.dropWhile (· != t))

/-- The parts of a dotted key; `part` holds the tokens of the current one, the last first. -/
def parts (part : List Token) : List Token → List (List Token)
  | [] => [part.reverse]
  | .dot :: r => part.reverse :: parts [] r
  | t :: r => parts (t :: part) r

/-- A part of a dotted key: one token, with blanks around it. -/
def partKey? (ts : List Token) : Option String :=
  match ts.filter (· != .blank) with
  | [t] => simpleKey? t
  | _ => none

/-- A dotted key: the keys before the last one, and the last one. -/
def key? (ts : List Token) : Option (List String × String) := do
  let ks ← (parts [] ts).mapM partKey?
  let k ← ks.getLast?
  if ks.length ≤ depthLimit then some (ks.dropLast, k) else none

/-! ## Values -/

mutual
/-- A value, and the tokens behind it; `room` is how many braces may still be opened inside of each
other, and the fuel bounds how many steps are taken. -/
def value? (room : Nat) : Nat → List Token → Option (Item × List Token)
  | _, .string s :: r => some (.scalar (.string s), r)
  | _, .word a :: .dot :: .word b :: r => (pointValue? a b).map fun v => (.scalar v, r)
  | _, .word a :: r => (wordValue? a).map fun v => (.scalar v, r)
  | fuel + 1, .openBrace :: r =>
    if room = 0 then none
    else
      match skip r with
      | .closeBrace :: r => some (.table .braces [], r)
      | r => (pairs? (room - 1) fuel [] r).map fun (t, r) => (.table .braces t, r)
  | _, _ => none

/-- The pairs of a table in braces, up to the brace that closes it. -/
def pairs? (room : Nat) : Nat → Table → List Token → Option (Table × List Token)
  | 0, _, _ => none
  | fuel + 1, t, ts => do
    let (before, r) := splitAt .equals ts
    let (path, k) ← key? before
    let (v, r) ← value? room fuel (skip (r.drop 1))
    let t ← t.assign? path k v
    match skip r with
    | .comma :: r => pairs? room fuel t r
    | .closeBrace :: r => some (t, r)
    | _ => none
end

/-! ## Lines -/

/-- The table read so far, and the header that was started last. -/
structure Progress where
  table : Table
  header : List String

/-- Read a line without blanks in front. -/
def line? (p : Progress) : List Token → Option Progress
  | [] => some p
  | .openBracket :: r => do
    let (inside, rest) := splitAt .closeBracket r
    let (path, k) ← key? inside
    match rest with
    | .closeBracket :: rest =>
      if (skip rest).isEmpty then
        (p.table.open? path k).map fun t => ⟨t, path ++ [k]⟩
      else none
    | _ => none
  | ts => do
    let (before, r) := splitAt .equals ts
    let (path, k) ← key? before
    let (v, rest) ← value? depthLimit ts.length (skip (r.drop 1))
    if (skip rest).isEmpty then
      (p.table.assignUnder? p.header path k v).map fun t => { p with table := t }
    else none

/-- **The reader**. -/
def ofText? (s : String) : Option Table :=
  ((linesOf s.toList).foldlM (fun p l => (tokens? l).bind fun ts => line? p (skip ts))
    (⟨[], []⟩ : Progress)).map (·.table)

end PageBuilder.Toml
