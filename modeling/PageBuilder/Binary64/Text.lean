/-
  Binary64 numbers as decimal text.

  Programs:       `text x`     — how a number is written: the shortest digits that read back, plain
                                 from `1e-5` up to `1e16`, else as `d.ddde±x`;
                  `ofText? s`  — how a numeral typed by a user is read: rounded once, from the
                                 exact decimal.
  Specification:  `ofText?` accepts a sign, then `inf`, `infinity` or `nan` in any case, or digits
                  with at most one point and at least one digit, with an optional exponent.
  Crux:           an exponent may be astronomically large, so `ofDecimal` decides by the length of
                  the numeral before it raises ten to any power.
-/
import PageBuilder.Binary64.Shortest

namespace PageBuilder.Binary64

/-! ## Writing -/

/-- Where the plain notation ends: the leading digit stands at a power of ten in
`[plainFrom, plainTo)`. -/
structure Layout where
  plainFrom : Int
  plainTo : Int
  /-- Written between the `e` and a positive exponent. -/
  positiveMark : List Char
deriving DecidableEq, Repr

/-- Numbers are plain from `1e-5` up to `1e16`, and a large exponent carries a plus sign. -/
def layout : Layout := ⟨-5, 16, ['+']⟩

/-- Digits with a point after the first `k`, filled with zeros so that both sides have a digit. -/
def plain (ds : List Char) (k : Int) : List Char :=
  if k ≤ 0 then
    ['0', '.'] ++ List.replicate (-k).toNat '0' ++ ds
  else if k < ds.length then
    ds.take k.toNat ++ '.' :: ds.drop k.toNat
  else
    ds ++ List.replicate (k.toNat - ds.length) '0' ++ ['.', '0']

/-- One digit, the rest behind a point if there is any, and the power of ten. -/
def scientific (l : Layout) (ds : List Char) (e : Int) : List Char :=
  let mantissa :=
    match ds with
    | d :: r :: rs => d :: '.' :: r :: rs
    | ds => ds
  let mark := if e < 0 then ['-'] else l.positiveMark
  mantissa ++ 'e' :: (mark ++ decimalDigits e.natAbs)

/-- A decimal in a layout. -/
def Decimal.write (l : Layout) (d : Decimal) : List Char :=
  let ds := decimalDigits d.digits
  let e := (ds.length : Int) - 1 + d.exponent
  if l.plainFrom ≤ e ∧ e < l.plainTo then plain ds (e + 1) else scientific l ds e

/-- A finite magnitude as text. -/
def magnitudeText (units : Nat) : List Char :=
  if units == 0 then ['0', '.', '0'] else (shortest units).write layout

/-- **The writer**: a finite number as text, `none` for the others. -/
def text? : Binary64 → Option (List Char)
  | .finite n u => some (if n then '-' :: magnitudeText u else magnitudeText u)
  | _ => none

/-! ## Reading -/

/-- Value of a numeral, given the value of what stands before it. -/
abbrev numeral (before : Nat) (ds : List Char) : Nat := Nat.ofDigitChars 10 ds before

/-- `digits · 10 ^ exponent`, rounded once. -/
def ofDecimal (negative : Bool) (digits : Nat) (exponent : Int) : Binary64 :=
  let top := ((decimalDigits digits).length : Int) + exponent
  if digits == 0 || top < -330 then .finite negative 0
  else if 310 < top then .infinite negative
  else if 0 ≤ exponent then round negative (digits * Nat.pow 10 exponent.toNat * one) 1
  else round negative (digits * one) (Nat.pow 10 exponent.natAbs)

/-- Split a sign off. -/
def takeSign : List Char → Bool × List Char
  | '-' :: cs => (true, cs)
  | '+' :: cs => (false, cs)
  | cs => (false, cs)

/-- The exponent at the end of a numeral: nothing, or `e`, a sign and digits. -/
def exponent? : List Char → Option Int
  | [] => some 0
  | c :: cs =>
    if c == 'e' || c == 'E' then
      let (n, ds) := takeSign cs
      if ds.isEmpty || !ds.all Char.isDigit then none
      else some (if n then -(numeral 0 ds : Int) else numeral 0 ds)
    else none

/-- Digits before the point, digits after it, and what follows. -/
def splitPoint (cs : List Char) : List Char × List Char × List Char :=
  let whole := cs.takeWhile Char.isDigit
  match cs.dropWhile Char.isDigit with
  | '.' :: r => (whole, r.takeWhile Char.isDigit, r.dropWhile Char.isDigit)
  | r => (whole, [], r)

/-- An unsigned numeral. -/
def unsigned? (negative : Bool) (cs : List Char) : Option Binary64 :=
  let (whole, fraction, r) := splitPoint cs
  if whole.isEmpty && fraction.isEmpty then none
  else (exponent? r).map fun e =>
    ofDecimal negative (numeral (numeral 0 whole) fraction) (e - fraction.length)

/-- Names of what is not finite. -/
def special? (negative : Bool) (cs : List Char) : Option Binary64 :=
  let name := cs.map Char.toLower
  if name == ['i', 'n', 'f'] || name == ['i', 'n', 'f', 'i', 'n', 'i', 't', 'y'] then
    some (.infinite negative)
  else if name == ['n', 'a', 'n'] then some .nan
  else none

/-- **The reader** of a typed numeral. -/
def ofText? (cs : List Char) : Option Binary64 :=
  let (n, r) := takeSign cs
  match special? n r with
  | some x => some x
  | none => unsigned? n r

example : Decimal.write layout ⟨15, -1⟩ = ['1', '.', '5'] := by cbv
example : Decimal.write layout ⟨1, 16⟩ = ['1', 'e', '+', '1', '6'] := by cbv
example : Decimal.write layout ⟨25, -8⟩ = ['2', '.', '5', 'e', '-', '7'] := by cbv
example : ofText? ['.'] = none ∧ ofText? ['+'] = none := by cbv

end PageBuilder.Binary64
