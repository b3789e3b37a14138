/-
  Words that are numbers or truth values.

  Specification:  a whole number is a sign and decimal digits that do not start with a zero, or a
                  zero, or digits of base 16, 8 or 2 behind their mark; it has 64 bits.  A single
                  underscore may stand between two digits.  A number with a fraction, an exponent or
                  both must not be too large.
-/
import PageBuilder.Binary64.Text
import PageBuilder.Json.Source
import PageBuilder.Toml.Table

namespace PageBuilder.Toml

/-- Digits with single underscores between them, the underscores taken out; `after` says whether a
digit stands right before. -/
def digitsFrom? (isDigit : Char → Bool) (after : Bool) : List Char → Option (List Char)
  | [] => if after then some [] else none
  | c :: r =>
    if c = '_' then if after then digitsFrom? isDigit false r else none
    else if isDigit c then (digitsFrom? isDigit true r).map (c :: ·)
    else none

/-- At least one digit. -/
def digits? (isDigit : Char → Bool) (cs : List Char) : Option (List Char) :=
  digitsFrom? isDigit false cs

/-- Decimal digits that do not start with a zero, or a zero alone. -/
def decimal? (cs : List Char) : Option (List Char) :=
  (digits? Char.isDigit cs).filter fun ds => ds.length == 1 || ds.head? != some '0'

/-- Value of digits of a base. -/
def valueOf (base : Nat) (ds : List Char) : Nat :=
  ds.foldl (fun n c => n * base + (Json.hexValue? c).getD 0) 0

/-- Digits of a base. -/
def based? (base : Nat) (cs : List Char) : Option Nat :=
  (digits? (fun c => (Json.hexValue? c).any (· < base)) cs).map (valueOf base)

/-- A whole number, of any size. -/
def whole? : List Char → Option Int
  | '0' :: 'x' :: r => (based? 16 r).map Int.ofNat
  | '0' :: 'o' :: r => (based? 8 r).map Int.ofNat
  | '0' :: 'b' :: r => (based? 2 r).map Int.ofNat
  | cs =>
    let (negative, r) := Binary64.takeSign cs
    (decimal? r).map fun ds =>
      if negative then -(valueOf 10 ds : Int) else (valueOf 10 ds : Int)

/-- A whole number of 64 bits. -/
def integer? (cs : List Char) : Option Int :=
  (whole? cs).filter fun i => -(Json.Number.halfWord : Int) ≤ i && i < (Json.Number.halfWord : Int)

/-- An exponent behind its `e`. -/
def exponent? (cs : List Char) : Option Int :=
  let (negative, r) := Binary64.takeSign cs
  (digits? Char.isDigit r).map fun ds =>
    if negative then -(valueOf 10 ds : Int) else (valueOf 10 ds : Int)

/-- Whether a character starts an exponent. -/
def isExponentMark (c : Char) : Bool := c == 'e' || c == 'E'

/-- What stands before an exponent, and the exponent; the outer `none` is an error. -/
def splitExponent? (cs : List Char) : Option (List Char × Option Int) :=
  match cs.dropWhile (fun c => !isExponentMark c) with
  | [] => some (cs, none)
  | _ :: r => (exponent? r).map fun e => (cs.takeWhile (fun c => !isExponentMark c), some e)

/-- Whether a number that is not whole is there: `cs` stands before the point, `fraction` behind. -/
def isFloat (cs : List Char) (fraction : Option (List Char)) : Bool :=
  let (negative, before) := Binary64.takeSign cs
  let parts : Option (List Char × List Char × Int) :=
    match fraction with
    | none => do
      let (ds, e) ← splitExponent? before
      some (← decimal? ds, [], ← e)
    | some f => do
      let (fs, e) ← splitExponent? f
      some (← decimal? before, ← digits? Char.isDigit fs, e.getD 0)
  match parts with
  | none => false
  | some (ds, fs, e) =>
    Binary64.ofDecimal negative (valueOf 10 (ds ++ fs)) (e - fs.length) != .infinite false

/-- Names of numbers that are not finite. -/
def isSpecial (cs : List Char) : Bool :=
  let r := (Binary64.takeSign cs).2
  r == ['i', 'n', 'f'] || r == ['n', 'a', 'n']

/-- **The value** of a word. -/
def wordValue? (cs : List Char) : Option Scalar :=
  if cs == ['t', 'r', 'u', 'e'] then some (.boolean true)
  else if cs == ['f', 'a', 'l', 's', 'e'] then some (.boolean false)
  else if isSpecial cs || isFloat cs none then some .float
  else (integer? cs).map .integer

/-- **The value** of two words with a point between them. -/
def pointValue? (before after : List Char) : Option Scalar :=
  if isFloat before (some after) then some .float else none

example : integer? "1_000".toList = some 1000 ∧ integer? "0x1F".toList = some 31 := by decide +kernel
example : integer? "01".toList = none ∧ integer? "1__0".toList = none := by decide +kernel

end PageBuilder.Toml
