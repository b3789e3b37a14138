/-
  Binary64 numbers, as exact integers.

  Every finite binary64 number is a whole multiple of `2 ^ -1074`, so its magnitude is kept as
  that multiple, its count of UNITS.  Nothing is ever approximated here: comparing two numbers is
  comparing two naturals, and an operation of the standard is the exact quotient of two naturals
  followed by ONE rounding.

  Program:        `round num den` — the number nearest to `num / den` units.
  Specification:  the grid around a magnitude `u` has step `step u` (53 significant bits above
                  the smallest step, which is one unit); the result is the nearest grid point, a
                  half going to the even one, and infinity from `2 ^ 1024` on.
  Crux:           `step` is read off the binary length of the floor alone, so no normalisation
                  loop and no exponent bookkeeping is needed.
-/
namespace PageBuilder

/-- A binary64 number: a sign with a magnitude in units of `2 ^ -1074`, an infinity, or no
number at all. -/
inductive Binary64 where
  | finite (negative : Bool) (units : Nat)
  | infinite (negative : Bool)
  | nan
deriving DecidableEq, Repr

namespace Binary64

/-! ## The grid of representable magnitudes -/

/-- Units in the number one. -/
def one : Nat := Nat.pow 2 1074

/-- The first magnitude too large to represent, `2 ^ 1024`, in units. -/
def limit : Nat := Nat.pow 2 2098

/-- Distance from a magnitude to the next one: one unit up to 53 bits, then doubling with every
further bit. -/
def step (units : Nat) : Nat := Nat.pow 2 (units.log2 - 52)

/-- The whole number nearest to `num / den`; a half goes to the even neighbour. -/
def nearestEven (num den : Nat) : Nat :=
  let q := num / den
  let r := num % den
  if 2 * r < den then q else if den < 2 * r then q + 1 else q + q % 2

example : nearestEven 5 2 = 2 ∧ nearestEven 7 2 = 4 ∧ nearestEven 8 3 = 3 := by decide

/-- **The rounding**: the representable number nearest to `num / den` units. -/
def round (negative : Bool) (num den : Nat) : Binary64 :=
  let s := step (num / den)
  let units := nearestEven num (den * s) * s
  if units < limit then .finite negative units else .infinite negative

/-! ## Whole numbers, products and quotients -/

def zero : Binary64 := .finite false 0

def ofNat (n : Nat) : Binary64 := round false (n * one) 1

/-- The nearest number to a whole number. -/
def ofInt (i : Int) : Binary64 := round (decide (i < 0)) (i.natAbs * one) 1

def hundred : Binary64 := ofNat 100

/-- The other sign. -/
def neg : Binary64 → Binary64
  | .finite n u => .finite (!n) u
  | .infinite n => .infinite (!n)
  | .nan => .nan

def isNaN : Binary64 → Bool
  | .nan => true
  | _ => false

/-- Zero of either sign. -/
def isZero : Binary64 → Bool
  | .finite _ u => u == 0
  | _ => false

/-- The magnitude as a product of two finite magnitudes, rounded once. -/
def mulUnits (u v : Nat) : Binary64 := round false (u * v) one

/-- The magnitude as a quotient of two finite magnitudes, rounded once. -/
def divUnits (u v : Nat) : Binary64 := round false (u * one) v

/-- The magnitude of a finite number. -/
def units? : Binary64 → Option Nat
  | .finite _ u => some u
  | _ => none

/-! ## Order

  `none` where a side is no number.  Both zeros sit at the same place. -/

/-- Signed position on the line of units; the infinities lie beyond every finite number. -/
def position : Binary64 → Option Int
  | .finite n u => some (if n then -(u : Int) else u)
  | .infinite n => some (if n then -(limit : Int) else limit)
  | .nan => none

/-- Strictly below; a number that is none is below nothing. -/
def lt (a b : Binary64) : Bool :=
  match a.position, b.position with
  | some p, some q => decide (p < q)
  | _, _ => false

/-- The same number: the zeros coincide, and what is no number differs from everything. -/
def same (a b : Binary64) : Bool :=
  match a.position, b.position with
  | some p, some q => decide (p = q)
  | _, _ => false

/-- The nearest point of `[low, high]`; what is no number stays so. -/
def clamp (x low high : Binary64) : Binary64 :=
  if x.lt low then low else if high.lt x then high else x

/-- The value of a whole number below `bound` in magnitude, when `x` is one. -/
def wholeBelow? (bound : Nat) : Binary64 → Option Int
  | .finite n u =>
    if u % one == 0 && u / one < bound then
      some (if n then -((u / one : Nat) : Int) else (u / one : Nat))
    else none
  | _ => none

end Binary64
end PageBuilder
