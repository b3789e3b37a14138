/-
  How far a rounding moves a magnitude.

  Programs:       `roundUnits` — a quotient, rounded, whether it can be represented or not;
                  `isMagnitude` — the magnitudes of the binary64 numbers that there are.
  Specification:  `roundUnits_le` — a rounding adds at most half a step;
                  `isMagnitude_of_units?_round` — and it ends on the grid;
                  `isFinite_mulUnits` — a product of two rounded factors overflows only if the exact
                  product is within four steps of the limit.
  Crux:           above `2 ^ 52` units half a step is at most the `2 ^ 53`rd part of the magnitude, so
                  three roundings in a row add less than two of the steps below the limit.
-/
import Mathlib.Tactic.Ring
import PageBuilder.Proofs.Binary64.Shortest
import PageBuilder.Proofs.Json.Proper

namespace PageBuilder.Binary64

/-! ## One rounding -/

/-- **A quotient, rounded**. -/
def roundUnits (num den : Nat) : Nat :=
  nearestEven num (den * step (num / den)) * step (num / den)

theorem round_eq (negative : Bool) (num den : Nat) :
    round negative num den
      = if roundUnits num den < limit then .finite negative (roundUnits num den)
        else .infinite negative := rfl

theorem units?_round (negative : Bool) (num den : Nat) : (round negative num den).units?
    = if roundUnits num den < limit then some (roundUnits num den) else none := by
  rw [round_eq]
  split <;> rfl

theorem isSome_units? (x : Binary64) : x.units?.isSome = x.isFinite := by
  cases x <;> rfl

/-- Rounding adds half a part at most. -/
theorem nearestEven_error (num den : Nat) : 2 * (den * nearestEven num den) ≤ 2 * num + den := by
  have hdiv : den * (num / den) + num % den = num := Nat.div_add_mod num den
  unfold nearestEven
  dsimp only
  split
  · omega
  · split
    · rw [Nat.mul_add]
      omega
    · have hparity : den * (num / den % 2) ≤ den * 1 := Nat.mul_le_mul_left den (by omega)
      rw [Nat.mul_add]
      omega

/-- **A rounding** adds at most half a step. -/
theorem roundUnits_le (num den : Nat) :
    2 * (den * roundUnits num den) ≤ 2 * num + den * step (num / den) := by
  have herror := nearestEven_error num (den * step (num / den))
  calc 2 * (den * roundUnits num den)
      = 2 * (den * step (num / den) * nearestEven num (den * step (num / den))) := by
        unfold roundUnits
        ring
    _ ≤ 2 * num + den * step (num / den) := herror

/-- From `2 ^ 52` on a magnitude is at least that many of its steps. -/
theorem step_mul_le {q : Nat} (hq : 2 ^ 52 ≤ q) : step q * 2 ^ 52 ≤ q := by
  have hlog : 52 ≤ q.log2 := (Nat.le_log2 (by omega)).2 hq
  calc step q * 2 ^ 52 = 2 ^ (q.log2 - 52 + 52) := (Nat.pow_add ..).symm
    _ = 2 ^ q.log2 := by rw [Nat.sub_add_cancel hlog]
    _ ≤ q := Nat.log2_self_le (by omega)

/-- A rounding adds at most the `2 ^ 53`rd part. -/
theorem roundUnits_relative {num den : Nat} (hq : 2 ^ 52 ≤ num / den) :
    den * roundUnits num den * 2 ^ 53 ≤ num * 2 ^ 53 + num := by
  have hround := roundUnits_le num den
  have hstep : den * step (num / den) * 2 ^ 52 ≤ num := by
    calc den * step (num / den) * 2 ^ 52 = den * (step (num / den) * 2 ^ 52) := Nat.mul_assoc ..
      _ ≤ den * (num / den) := Nat.mul_le_mul_left _ (step_mul_le hq)
      _ ≤ num := Nat.mul_div_le _ _
  calc den * roundUnits num den * 2 ^ 53 = 2 * (den * roundUnits num den) * 2 ^ 52 := by ring
    _ ≤ (2 * num + den * step (num / den)) * 2 ^ 52 := Nat.mul_le_mul_right _ hround
    _ = num * 2 ^ 53 + den * step (num / den) * 2 ^ 52 := by ring
    _ ≤ num * 2 ^ 53 + num := Nat.add_le_add_left hstep _

/-! ## The range -/

/-- The steps below the limit. -/
def topStep : Nat := Nat.pow 2 2045

theorem topStep_eq : topStep = 2 ^ 2045 := by decide +kernel

theorem limit_eq_pow : limit = 2 ^ (2045 + 53) := by decide +kernel

theorem limit_eq : limit = 2 ^ 53 * topStep := by decide +kernel

theorem two_le_topStep : 2 ≤ topStep := by decide +kernel

/-- Below a power of two the step divides the power 53 places down. -/
theorem step_dvd_pow {u k : Nat} (hu : u < 2 ^ (k + 53)) : step u ∣ 2 ^ k := by
  have hlog : u.log2 < k + 53 := by
    rcases Nat.eq_zero_or_pos u with rfl | hpos
    · exact Nat.succ_pos _
    · exact (Nat.log2_lt (Nat.ne_of_gt hpos)).2 hu
  exact Nat.pow_dvd_pow 2 (by omega)

theorem step_le_pow {u k : Nat} (hu : u < 2 ^ (k + 53)) : step u ≤ 2 ^ k :=
  Nat.le_of_dvd (Nat.two_pow_pos k) (step_dvd_pow hu)

/-- From a power of two on the step is no smaller than the power 52 places down. -/
theorem pow_le_step {u k : Nat} (hu : 2 ^ (k + 52) ≤ u) : 2 ^ k ≤ step u := by
  have hpos : 0 < u := Nat.lt_of_lt_of_le (Nat.pow_pos (by decide)) hu
  have hlog : k + 52 ≤ u.log2 := (Nat.le_log2 (Nat.ne_of_gt hpos)).2 hu
  exact Nat.pow_le_pow_right (by decide) (by omega)

theorem step_le_topStep {u : Nat} (hu : u < limit) : step u ≤ topStep := by
  rw [limit_eq_pow] at hu
  rw [topStep_eq]
  exact step_le_pow hu

/-- **The magnitudes that there are**: those on the grid, below the limit. -/
def isMagnitude (u : Nat) : Bool := u < limit && u % step u == 0

theorem isMagnitude_iff {u : Nat} : isMagnitude u = true ↔ u < limit ∧ step u ∣ u := by
  rw [isMagnitude, Bool.and_eq_true, decide_eq_true_eq, beq_iff_eq, Nat.dvd_iff_mod_eq_zero]

/-- As many steps as there are bits lead to the next step. -/
theorem step_dvd_mul {k j : Nat} (hk : k ≤ 2 ^ 53) : step (k * 2 ^ j) ∣ k * 2 ^ j := by
  rcases Nat.lt_or_eq_of_le hk with hlt | rfl
  · refine Nat.dvd_trans (step_dvd_pow ?_) (Nat.dvd_mul_left _ _)
    rw [Nat.pow_add, Nat.mul_comm]
    exact Nat.mul_lt_mul_of_pos_left hlt (Nat.two_pow_pos j)
  · rw [← Nat.pow_add]
    refine Nat.dvd_trans (step_dvd_pow (k := j + 1) ?_) (Nat.pow_dvd_pow 2 (by omega))
    exact Nat.pow_lt_pow_right (by decide) (by omega)

/-- **A rounding ends on the grid.** -/
theorem step_dvd_roundUnits (num den : Nat) : step (roundUnits num den) ∣ roundUnits num den := by
  have hsteps : nearestEven num (den * step (num / den)) ≤ 2 ^ 53 := by
    have hnear := nearestEven_le num (den * step (num / den))
    rw [← Nat.div_div_eq_div_mul] at hnear
    have hbits : num / den < step (num / den) * 2 ^ 53 := by
      show num / den < 2 ^ ((num / den).log2 - 52) * 2 ^ 53
      rw [← Nat.pow_add]
      refine Nat.lt_of_lt_of_le Nat.lt_log2_self (Nat.pow_le_pow_right (by decide) (by omega))
    have hquotient : num / den / step (num / den) < 2 ^ 53 := Nat.div_lt_of_lt_mul hbits
    omega
  exact step_dvd_mul hsteps

/-- What is rounded is a magnitude. -/
theorem isMagnitude_of_units?_round {negative : Bool} {num den u : Nat}
    (h : (round negative num den).units? = some u) : isMagnitude u = true := by
  rw [units?_round] at h
  split at h
  · next hlimit =>
    rw [← Option.some.inj h]
    exact isMagnitude_iff.2 ⟨hlimit, step_dvd_roundUnits num den⟩
  · nomatch h

theorem half_limit_le : 2 ^ (2045 + 52) + 4 * topStep ≤ limit := by decide +kernel

/-- Near the limit there are only the last three magnitudes. -/
theorem near_limit {u : Nat} (h : isMagnitude u = true) :
    u + 4 * topStep ≤ limit ∨ ∃ k < 3, u = limit - (k + 1) * topStep := by
  obtain ⟨hlimit, hgrid⟩ := isMagnitude_iff.1 h
  refine (Nat.lt_or_ge limit (u + 4 * topStep)).symm.imp_right fun hnear => ?_
  -- in the upper half of the range the grid is as wide as it gets
  have hlarge : ∀ {half}, half + 4 * topStep ≤ limit → half ≤ u := fun h => by omega
  have hstep : step u = topStep := by
    have hpow := pow_le_step (hlarge half_limit_le)
    rw [← topStep_eq] at hpow
    exact Nat.le_antisymm (step_le_topStep hlimit) hpow
  rw [hstep] at hgrid
  have hunits : u / topStep * topStep = u := Nat.div_mul_cancel hgrid
  generalize u / topStep = j at hunits
  rw [limit_eq] at hlimit hnear ⊢
  rw [← hunits] at hlimit hnear ⊢
  rw [← Nat.add_mul] at hnear
  have hj : j < 2 ^ 53 := Nat.lt_of_mul_lt_mul_right hlimit
  have hj' : 2 ^ 53 < j + 4 := Nat.lt_of_mul_lt_mul_right hnear
  have hk : 2 ^ 53 - (2 ^ 53 - 1 - j + 1) = j := by omega
  refine ⟨2 ^ 53 - 1 - j, by omega, ?_⟩
  rw [← Nat.sub_mul, hk]

/-- A quotient is finite when it is rounded below the limit. -/
theorem isFinite_round_iff {negative : Bool} {num den : Nat} :
    (round negative num den).isFinite = true ↔ roundUnits num den < limit := by
  rw [round_eq]
  split
  · next h => exact iff_of_true rfl h
  · next h => exact iff_of_false Bool.false_ne_true h

/-- **A product of two rounded factors** is finite if the exact product is no more than half a step
above a magnitude that is four steps below the limit. -/
theorem isFinite_mulUnits {m t u a b : Nat}
    (ha : a * 2 ^ 53 ≤ m * one * 2 ^ 53 + m * one) (hb : b * 2 ^ 53 ≤ t * one * 2 ^ 53 + t * one)
    (hmt : 2 * (m * t * one) ≤ 2 * u + topStep) (hu : u + 4 * topStep ≤ limit) :
    (mulUnits a b).isFinite = true := by
  have hproduct : a * b * 2 ^ 106 ≤ m * t * one * (2 ^ 53 + 1) ^ 2 * one := by
    calc a * b * 2 ^ 106 = a * 2 ^ 53 * (b * 2 ^ 53) := by ring
      _ ≤ (m * one * 2 ^ 53 + m * one) * (t * one * 2 ^ 53 + t * one) := Nat.mul_le_mul ha hb
      _ = m * t * one * (2 ^ 53 + 1) ^ 2 * one := by ring
  have hquotient : a * b / one * 2 ^ 106 ≤ m * t * one * (2 ^ 53 + 1) ^ 2 := by
    refine Nat.le_of_mul_le_mul_right ?_ one_pos
    calc a * b / one * 2 ^ 106 * one = a * b / one * one * 2 ^ 106 := by ring
      _ ≤ a * b * 2 ^ 106 := Nat.mul_le_mul_right _ (Nat.div_mul_le_self _ _)
      _ ≤ m * t * one * (2 ^ 53 + 1) ^ 2 * one := hproduct
  have htop := two_le_topStep
  rw [limit_eq] at hu
  -- the two factors add less than two and a half steps, which leaves room for a third rounding
  have hroom : 2 * (a * b / one) + 3 * topStep ≤ 2 ^ 54 * topStep := by
    generalize a * b / one = q at hquotient ⊢
    generalize m * t * one = e at hquotient hmt
    omega
  have hbelow : a * b / one < limit := by
    rw [limit_eq]
    omega
  have hstep : one * step (a * b / one) ≤ one * topStep :=
    Nat.mul_le_mul_left _ (step_le_topStep hbelow)
  have hfloor : a * b < one * (a * b / one + 1) := Nat.lt_mul_div_succ _ one_pos
  have hround := roundUnits_le (a * b) one
  have hresult : one * (2 * roundUnits (a * b) one) < one * (2 * (a * b / one + 1) + topStep) := by
    rw [Nat.mul_add, Nat.mul_left_comm one 2, Nat.mul_left_comm one 2]
    omega
  have hunits := Nat.lt_of_mul_lt_mul_left hresult
  unfold mulUnits
  rw [isFinite_round_iff, limit_eq]
  omega

end PageBuilder.Binary64
