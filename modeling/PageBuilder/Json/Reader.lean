/-
  Values from JSON text.

  Programs:       `Source.value? room v`  — the value a tree spells, nesting at most `room` deep;
                  `ofText? s`             — the value a whole text spells.
  Specification:  a number without fraction and exponent that fits a 64-bit word is whole; any other
                  is a binary64 number and must be finite.  Of two fields of one name the last one
                  gives the value, the first one the place.
  Crux:           a binary64 number is read in TWO roundings — its digits, as many as fit a 64-bit
                  word, then one scaling by a power of ten — so the last bit of a long numeral may
                  differ from the nearest number; `ofDigits` is that rule, to the bit.
-/
import PageBuilder.Json.Source

namespace PageBuilder.Json

/-! ## Numbers -/

/-- Append digits to a natural while it fits a word; also the number of digits that did not fit. -/
def appendDigits : Nat → List Char → Nat × Nat
  | n, [] => (n, 0)
  | n, d :: ds =>
    let m := n * 10 + (d.toNat - '0'.toNat)
    if m < Number.wordSize then appendDigits m ds else (n, ds.length + 1)

/-- Magnitude of `10 ^ e` in units, for `e ≤ 308`. -/
def powerUnits (e : Nat) : Nat := (Binary64.ofNat (Nat.pow 10 e)).units?.getD 0

/-- Divide a magnitude by `10 ^ e`, by `10 ^ 308` at a time. -/
def scaleDown (u e : Nat) : Nat :=
  if h : e ≤ 308 then divided u e
  else if u = 0 then 0
  else scaleDown (divided u 308) (e - 308)
termination_by e
decreasing_by omega
where
  /-- One division, rounded. -/
  divided (u e : Nat) : Nat := (Binary64.divUnits u (powerUnits e)).units?.getD 0

/-- `n · 10 ^ e`, for a word `n`: rounded, then scaled and rounded again; nothing if it overflows. -/
def ofDigits (n : Nat) (e : Int) : Option Nat :=
  (Binary64.ofNat n).units?.bind fun u =>
    if u = 0 then some 0
    else if e < 0 then some (scaleDown u e.natAbs)
    else if 308 < e then none
    else (Binary64.mulUnits u (powerUnits e.toNat)).units?

/-- A number as a binary64 one. -/
def Literal.binary? (n : Literal) : Option Json.Number :=
  let (w, dropped) := appendDigits 0 n.whole
  let (m, used) :=
    match n.fraction with
    | none => (w, 0)
    | some ds =>
      let (m, left) := appendDigits w ds
      (m, ds.length - left)
  (ofDigits m ((dropped : Int) - used + n.exponent.getD 0)).map fun u =>
    .binary (.finite n.negative u)

/-- A number: whole if it is spelled so and fits, binary otherwise.  A negative zero is binary. -/
def Literal.number? (n : Literal) : Option Json.Number :=
  if n.fraction.isNone && n.exponent.isNone then
    let m := Binary64.numeral 0 n.whole
    if n.negative then
      if 0 < m && m ≤ Number.halfWord then some (.whole (-(m : Int))) else n.binary?
    else if m < Number.wordSize then some (.whole m) else n.binary?
  else n.binary?

/-! ## Values -/

mutual
/-- **The reader**: the value a tree spells, nesting at most `room` deep. -/
def Source.value? (room : Nat) : Source → Option Json
  | .null => some .null
  | .bool b => some (.bool b)
  | .number n => n.number?.map .number
  | .string s => s.map .string
  | .array xs => if room = 0 then none else (Source.values? (room - 1) xs).map .array
  | .object fs => if room = 0 then none else (Source.fields? (room - 1) [] fs).map .object

def Source.values? (room : Nat) : List Source → Option (List Json)
  | [] => some []
  | x :: xs => do
    let v ← Source.value? room x
    let vs ← Source.values? room xs
    some (v :: vs)

/-- The fields, written one after the other over those that came before. -/
def Source.fields? (room : Nat) (before : Fields) : List (Option String × Source) → Option Fields
  | [] => some before
  | (none, _) :: _ => none
  | (some k, x) :: r => do
    let v ← Source.value? room x
    Source.fields? room (before.put k v) r
end

/-- Brackets that may be open at once. -/
def maxDepth : Nat := 127

/-- The value a whole text spells. -/
def ofText? (s : String) : Option Json := (Source.ofText? s).bind (Source.value? maxDepth)

end PageBuilder.Json
