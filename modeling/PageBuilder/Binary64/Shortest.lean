/-
  The shortest decimal that reads back.

  Program:        `shortest u` — the fewest decimal digits that still round to the magnitude `u`,
                  with the power of ten they stand at.
  Specification:  a decimal rounds to `u` iff it lies in the interval between the midpoints to
                  `u`'s two neighbours on the grid, ends included iff `u / step u` is even.  Of the
                  decimals in that interval the answer has the fewest digits, and of those the
                  nearest to `u`, an exact tie going to the even digit.
  Crux:           for `n` digits only two candidates matter, the multiples of one power of ten
                  just below and just above `u`; so the search is over `n ≤ 17`, in exact naturals.
-/
import PageBuilder.Binary64.Basic

namespace PageBuilder.Binary64

/-! ## Decimal digits of a natural -/

/-- Decimal digits of a natural, the highest first; zero has one digit. -/
abbrev decimalDigits (n : Nat) : List Char := Nat.toDigits 10 n

/-- Drop the zeros at the end of a numeral, counting them. -/
def stripZeros (n : Nat) : Nat × Nat :=
  if h : n ≠ 0 ∧ n % 10 = 0 then
    let r := stripZeros (n / 10)
    (r.1, r.2 + 1)
  else (n, 0)
termination_by n
decreasing_by omega

/-- A positive decimal, `digits · 10 ^ exponent`. -/
structure Decimal where
  digits : Nat
  exponent : Int
deriving DecidableEq, Repr

/-! ## The interval that rounds to a magnitude

  All lengths are counted in quarters of a unit, so that both midpoints are whole. -/

/-- Quarter units from `u` down to the lower midpoint; the gap below a power of two is half the
one above, except where the grid can get no finer. -/
def quartersBelow (u : Nat) : Nat :=
  if u == Nat.pow 2 u.log2 && 1 < step u then step u else 2 * step u

/-- Quarter units from `u` up to the upper midpoint. -/
def quartersAbove (u : Nat) : Nat := 2 * step u

/-! ## The search -/

/-- Decimals are looked for as multiples of `10 ^ -342`, finer than any that is needed. -/
def finest : Nat := 342

/-- So many of the finest multiples make one. -/
def finestUnits : Nat := Nat.pow 10 finest

/-- Whether the decimal `c · 10 ^ (p - finest)` rounds to the magnitude `u`. -/
def readsAs (u c p : Nat) : Bool :=
  let here := c * Nat.pow 10 p * one * 4
  let low := (4 * u - quartersBelow u) * finestUnits
  let high := (4 * u + quartersAbove u) * finestUnits
  if (u / step u) % 2 == 0 then low ≤ here && here ≤ high else low < here && here < high

/-- The better of the two multiples of `10 ^ (p - finest)` around `u` that read back as `u`. -/
def candidate? (u p : Nat) : Option Nat :=
  let below := u * finestUnits / (one * Nat.pow 10 p)
  let above := below + 1
  match readsAs u below p, readsAs u above p with
  | true, true =>
    let down := u * finestUnits - below * Nat.pow 10 p * one
    let up := above * Nat.pow 10 p * one - u * finestUnits
    some (if down < up then below else if up < down then above
      else if below % 2 == 0 then below else above)
  | true, false => some below
  | false, true => some above
  | false, false => none

/-- Try ever finer powers of ten, `tries` of them, from `10 ^ (p - finest)` on. -/
def search (u : Nat) : Nat → Nat → Nat × Nat
  | 0, p => (u * finestUnits / (one * Nat.pow 10 p), p)
  | tries + 1, p =>
    match candidate? u p with
    | some c => (c, p)
    | none => search u tries (p - 1)

/-- **The program**: the shortest decimal that rounds to a positive magnitude. -/
def shortest (u : Nat) : Decimal :=
  let lead := (decimalDigits (u * finestUnits / one)).length
  let (c, p) := search u 17 (lead - 1)
  let (digits, zeros) := stripZeros c
  ⟨digits, (p : Int) + zeros - finest⟩

/-! ## Small facts -/

/-- Reading the digits of a natural gives it back. -/
theorem ofDigitChars_decimalDigits (n : Nat) : Nat.ofDigitChars 10 (decimalDigits n) 0 = n :=
  Nat.ofDigitChars_toDigits (by decide) (by decide)

theorem decimalDigits_ne_nil (n : Nat) : decimalDigits n ≠ [] := by
  have := @Nat.length_toDigits_pos 10 n
  intro h
  simp [h] at this

theorem stripZeros_mul (n : Nat) : (stripZeros n).1 * Nat.pow 10 (stripZeros n).2 = n := by
  rw [stripZeros]
  split
  · next h =>
    have ih := stripZeros_mul (n / 10)
    show (stripZeros (n / 10)).1 * (Nat.pow 10 (stripZeros (n / 10)).2 * 10) = n
    rw [← Nat.mul_assoc, ih]
    omega
  · exact Nat.mul_one n
termination_by n
decreasing_by omega

end PageBuilder.Binary64
