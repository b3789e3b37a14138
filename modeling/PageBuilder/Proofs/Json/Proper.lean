/-
  Proper values: those whose numbers JSON can hold.

  The type of values is wider than JSON, since it has room for infinities and for whole numbers of
  any size.  A PROPER value has none of these.

  Programs:       `Number.isProper`, `isProper`.
  Specification:  `Number.isFinite_toBinary64` — a proper number is finite as a binary64 one.
  Crux:           `Binary64.isFinite_ofInt` — rounding a word stays far below the largest number,
                  because the grid at a magnitude is never wider than the magnitude itself.
-/
import PageBuilder.Json.Reader

namespace PageBuilder

/-! ## Finite numbers -/

namespace Binary64

def isFinite : Binary64 → Bool
  | .finite _ _ => true
  | _ => false

theorem isFinite_iff {x : Binary64} : x.isFinite = true ↔ ∃ n u, x = .finite n u := by
  cases x <;> simp [isFinite]

/-- The grid is no wider than the magnitude it is taken at. -/
theorem step_le (u : Nat) : step u ≤ u + 1 := by
  show Nat.pow 2 (u.log2 - 52) ≤ u + 1
  rcases Nat.eq_zero_or_pos u with hu | hu
  · subst hu
    decide
  · have h1 : 2 ^ (u.log2 - 52) ≤ 2 ^ u.log2 := Nat.pow_le_pow_right (by decide) (by omega)
    have h2 : 2 ^ u.log2 ≤ u := Nat.log2_self_le (by omega)
    exact Nat.le_succ_of_le (Nat.le_trans h1 h2)

/-- Rounding gives at most one more than the quotient. -/
theorem nearestEven_le (num den : Nat) : nearestEven num den ≤ num / den + 1 := by
  unfold nearestEven
  dsimp only
  split
  · omega
  · split
    · omega
    · have := Nat.mod_lt (num / den) (by decide : 2 > 0)
      omega

/-- Rounding at most doubles a magnitude, one unit aside. -/
theorem nearestEven_step_le (num den : Nat) :
    nearestEven num (den * step (num / den)) * step (num / den) ≤ 2 * (num / den) + 1 := by
  have hnear := nearestEven_le num (den * step (num / den))
  rw [← Nat.div_div_eq_div_mul] at hnear
  have hdiv : num / den / step (num / den) * step (num / den) ≤ num / den := Nat.div_mul_le_self _ _
  have hstep := step_le (num / den)
  calc nearestEven num (den * step (num / den)) * step (num / den)
      ≤ (num / den / step (num / den) + 1) * step (num / den) := Nat.mul_le_mul_right _ hnear
    _ = num / den / step (num / den) * step (num / den) + step (num / den) := by
        rw [Nat.add_mul, Nat.one_mul]
    _ ≤ 2 * (num / den) + 1 := by omega

/-- What is well below the limit is rounded to a finite number. -/
theorem isFinite_round {num den : Nat} (negative : Bool) (h : 2 * (num / den) + 1 < limit) :
    (round negative num den).isFinite = true := by
  have hle := nearestEven_step_le num den
  unfold round
  dsimp only
  rw [if_pos (by omega)]
  rfl

theorem two_mul_word_lt_limit : 2 * (Json.Number.wordSize * one) + 1 < limit := by
  decide +kernel

/-- A whole number of a word's size is finite. -/
theorem isFinite_ofInt {i : Int} (h : i.natAbs ≤ Json.Number.wordSize) : (ofInt i).isFinite = true := by
  refine isFinite_round _ ?_
  have hmul : i.natAbs * one ≤ Json.Number.wordSize * one := Nat.mul_le_mul_right _ h
  have hlim := two_mul_word_lt_limit
  rw [Nat.div_one]
  omega

theorem isFinite_ofNat {n : Nat} (h : n ≤ Json.Number.wordSize) : (ofNat n).isFinite = true :=
  isFinite_ofInt (i := n) h

end Binary64

namespace Json

/-! ## Proper values -/

/-- Whether JSON can hold a number: a whole one within the words, or a finite one. -/
def Number.isProper : Number → Bool
  | .whole i => inRange i
  | .binary x => x.isFinite

mutual
/-- **Proper values**: every number in it is one that JSON can hold. -/
def isProper : Json → Bool
  | .number n => n.isProper
  | .array xs => areProper xs
  | .object fs => holdProper fs
  | _ => true

def areProper : List Json → Bool
  | [] => true
  | x :: xs => isProper x && areProper xs

def holdProper : List (String × Json) → Bool
  | [] => true
  | (_, v) :: r => isProper v && holdProper r
end

@[simp] theorem isProper_array (xs : List Json) : (array xs).isProper = areProper xs := rfl

@[simp] theorem isProper_object (fs : Fields) : (object fs).isProper = holdProper fs := rfl

@[simp] theorem isProper_number (n : Number) : (number n).isProper = n.isProper := rfl

@[simp] theorem isProper_string (s : String) : (string s).isProper = true := rfl

theorem areProper_iff {xs : List Json} : areProper xs = true ↔ ∀ x ∈ xs, x.isProper = true := by
  induction xs with
  | nil => simp [areProper]
  | cons x xs ih => simp [areProper, ih]

/-- Fields are proper when each value is. -/
theorem holdProper_iff {fs : Fields} :
    holdProper fs = true ↔ ∀ e ∈ fs, e.2.isProper = true := by
  induction fs with
  | nil => simp [holdProper]
  | cons e r ih => simp [holdProper, ih]

/-- A proper number is finite as a binary64 one. -/
theorem Number.isFinite_toBinary64 {n : Number} (h : n.isProper = true) :
    n.toBinary64.isFinite = true := by
  cases n with
  | whole i =>
    have hrange : -(halfWord : Int) ≤ i ∧ i < (wordSize : Int) := by
      simpa [Number.isProper, inRange] using h
    refine Binary64.isFinite_ofInt ?_
    simp only [halfWord, wordSize] at hrange ⊢
    omega
  | binary x => exact h

end Json
end PageBuilder
