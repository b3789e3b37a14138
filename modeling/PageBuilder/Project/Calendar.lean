/-
  Points in time as dates.

  Program:        `text?` — milliseconds since 1970 as year, month, day, hour and minute.
  Specification:  the proleptic Gregorian calendar.  A year has four digits; one that does not fit
                  them has a sign.  Years from -262143 to 262142 have a text.
  Crux:           the day count starts on the first of March of year 0, so that the leap day ends a
                  cycle and every length of month is a quotient.
-/
import PageBuilder.Binary64.Shortest

namespace PageBuilder.Calendar

/-- A day of the Gregorian calendar. -/
structure Date where
  year : Int
  month : Int
  day : Int
deriving DecidableEq, Repr

/-- Days from the first of March of year 0 to the first of January 1970. -/
def epoch : Int := 719468

/-- Days in four hundred years. -/
def cycle : Int := 146097

/-- The date of a day counted from the first of January 1970. -/
def date (days : Int) : Date :=
  let z := days + epoch
  let d := z % cycle
  let year := (d - d / 1460 + d / 36524 - d / 146096) / 365
  let dayOfYear := d - (365 * year + year / 4 - year / 100)
  let m := (5 * dayOfYear + 2) / 153
  let month := if m < 10 then m + 3 else m - 9
  let start := z / cycle * 400 + year
  ⟨if month ≤ 2 then start + 1 else start, month, dayOfYear - (153 * m + 2) / 5 + 1⟩

/-- A natural with zeros in front, at least `width` digits. -/
def padded (width n : Nat) : List Char :=
  let ds := Binary64.decimalDigits n
  List.replicate (width - ds.length) '0' ++ ds

/-- A year. -/
def yearText (y : Int) : List Char :=
  if y < 0 then '-' :: padded 4 y.natAbs
  else if 9999 < y then '+' :: padded 4 y.natAbs
  else padded 4 y.natAbs

/-- The first and the last millisecond that have a text. -/
def first : Int := -8334601228800000
def last : Int := 8210266876799999

/-- **The text** of a point in time. -/
def text? (milliseconds : Int) : Option String :=
  if first ≤ milliseconds ∧ milliseconds ≤ last then
    let minutes := milliseconds / 60000
    let t := date (minutes / 1440)
    let ofDay := (minutes % 1440).toNat
    some (String.ofList (yearText t.year ++ '-' :: padded 2 t.month.toNat ++ '-' ::
      padded 2 t.day.toNat ++ ' ' :: padded 2 (ofDay / 60) ++ ':' :: padded 2 (ofDay % 60)))
  else none

example : date 0 = ⟨1970, 1, 1⟩ ∧ date (-1) = ⟨1969, 12, 31⟩ ∧ date 11016 = ⟨2000, 2, 29⟩ := by decide
example : date (first / 86400000) = ⟨-262143, 1, 1⟩ ∧ date (last / 86400000) = ⟨262142, 12, 31⟩ := by
  decide

end PageBuilder.Calendar
