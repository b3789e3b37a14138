/-
  The shortest decimal is one, and no more than half a step too large.

  Specification:  `digits_shortest_pos` — a positive magnitude has a positive decimal;
                  `shortest_le` — the decimal is at most the upper midpoint.
  Crux:           the search only ever looks at multiples of a power of ten that is at most the
                  magnitude, and ends with such a multiple below it when nothing reads back.
-/
import Mathlib.Tactic.Ring
import PageBuilder.Binary64.Shortest

namespace PageBuilder.Binary64

theorem one_pos : 0 < one := by decide +kernel

theorem finestUnits_eq : finestUnits = 10 ^ finest := by decide +kernel

/-! ## Digits -/

/-- A number is no less than the power of ten of its first digit. -/
theorem pow_length_le {n : Nat} (hn : 0 < n) : 10 ^ ((decimalDigits n).length - 1) ≤ n := by
  rcases Nat.eq_zero_or_pos ((decimalDigits n).length - 1) with hlength | hlength
  · rw [hlength]
    exact hn
  · refine Nat.le_of_not_lt fun hlt => ?_
    have hshort : (decimalDigits n).length ≤ (decimalDigits n).length - 1 :=
      (Nat.length_toDigits_le_iff (by decide) hlength).2 hlt
    omega

/-- A positive numeral does not start with a zero. -/
theorem head?_decimalDigits {n : Nat} (hn : 0 < n) : (decimalDigits n).head? ≠ some '0' := by
  induction n using Nat.strongRecOn with
  | ind n ih =>
    unfold decimalDigits at ih ⊢
    rw [Nat.toDigits_eq_if (by decide)]
    split
    · next hlt =>
      intro h
      have hzero : n = 0 := Nat.digitChar_eq_zero.1 (Option.some.inj h)
      omega
    · next hge =>
      have hhead := ih (n / 10) (by omega) (by omega)
      cases hds : Nat.toDigits 10 (n / 10) with
      | nil => exact absurd hds (decimalDigits_ne_nil _)
      | cons d ds =>
        rw [hds] at hhead
        exact hhead

/-! ## The search -/

/-- Half a step above a magnitude, in units of twice the finest multiple. -/
theorem le_of_readsAs {u c p : Nat} (h : readsAs u c p = true) :
    2 * (c * 10 ^ p * one) ≤ (2 * u + step u) * finestUnits := by
  have hhigh : c * 10 ^ p * one * 4 ≤ (4 * u + 2 * step u) * finestUnits := by
    unfold readsAs quartersAbove at h
    dsimp only at h
    split at h
    · rw [Bool.and_eq_true, decide_eq_true_eq, decide_eq_true_eq] at h
      exact h.2
    · rw [Bool.and_eq_true, decide_eq_true_eq, decide_eq_true_eq] at h
      exact Nat.le_of_lt h.2
  have hdouble : (4 * u + 2 * step u) * finestUnits = 2 * ((2 * u + step u) * finestUnits) := by
    ring
  omega

/-- The greatest multiple that is not above a magnitude. -/
theorem floor_le (u p : Nat) :
    2 * (u * finestUnits / (one * 10 ^ p) * 10 ^ p * one) ≤ (2 * u + step u) * finestUnits := by
  have hfloor : u * finestUnits / (one * 10 ^ p) * (one * 10 ^ p) ≤ u * finestUnits :=
    Nat.div_mul_le_self _ _
  calc 2 * (u * finestUnits / (one * 10 ^ p) * 10 ^ p * one)
      = 2 * (u * finestUnits / (one * 10 ^ p) * (one * 10 ^ p)) := by ring
    _ ≤ 2 * (u * finestUnits) := Nat.mul_le_mul_left 2 hfloor
    _ ≤ (2 * u + step u) * finestUnits := by
        rw [← Nat.mul_assoc]
        exact Nat.mul_le_mul_right _ (Nat.le_add_right _ _)

/-- A candidate reads back, and is one of the multiples around the magnitude. -/
theorem candidate?_spec {u p c : Nat} (h : candidate? u p = some c) :
    readsAs u c p = true ∧ u * finestUnits / (one * 10 ^ p) ≤ c := by
  unfold candidate? at h
  dsimp only at h
  -- of two candidates the nearer one is taken, and of two as near the even one
  split at h
  · next hbelow habove =>
    obtain rfl := Option.some.inj h
    split
    · exact ⟨hbelow, Nat.le_refl _⟩
    · split
      · exact ⟨habove, Nat.le_succ _⟩
      · split
        · exact ⟨hbelow, Nat.le_refl _⟩
        · exact ⟨habove, Nat.le_succ _⟩
  · next hbelow _ =>
    obtain rfl := Option.some.inj h
    exact ⟨hbelow, Nat.le_refl _⟩
  · next _ habove =>
    obtain rfl := Option.some.inj h
    exact ⟨habove, Nat.le_succ _⟩
  · nomatch h

/-- **What the search finds**, from a power of ten that is not above the magnitude. -/
theorem search_spec {u : Nat} (tries : Nat) {p : Nat} (hp : one * 10 ^ p ≤ u * finestUnits) :
    0 < (search u tries p).1 ∧
      2 * ((search u tries p).1 * 10 ^ (search u tries p).2 * one)
        ≤ (2 * u + step u) * finestUnits := by
  have hpos : 0 < u * finestUnits / (one * 10 ^ p) := by
    exact Nat.div_pos hp (Nat.mul_pos one_pos (Nat.pow_pos (by decide)))
  induction tries generalizing p with
  | zero => exact ⟨hpos, floor_le u p⟩
  | succ tries ih =>
    rw [search]
    split
    · next c hc =>
      obtain ⟨hreads, hle⟩ := candidate?_spec hc
      exact ⟨Nat.lt_of_lt_of_le hpos hle, le_of_readsAs hreads⟩
    · -- one power of ten lower the multiples are closer, and still not all above the magnitude
      have hfiner : one * 10 ^ (p - 1) ≤ u * finestUnits :=
        Nat.le_trans (Nat.mul_le_mul_left _ (Nat.pow_le_pow_right (by decide) (Nat.sub_le p 1))) hp
      exact ih hfiner (Nat.div_pos hfiner (Nat.mul_pos one_pos (Nat.pow_pos (by decide))))

/-! ## The shortest decimal -/

theorem one_le_finestUnits : one ≤ finestUnits := by decide +kernel

/-- The search starts from a power of ten that is not above the magnitude. -/
theorem lead_le {u : Nat} (hu : 0 < u) :
    one * 10 ^ ((decimalDigits (u * finestUnits / one)).length - 1) ≤ u * finestUnits := by
  have hpos : 0 < u * finestUnits / one := by
    refine Nat.div_pos ?_ one_pos
    exact Nat.le_trans one_le_finestUnits (Nat.le_mul_of_pos_left _ hu)
  calc one * 10 ^ ((decimalDigits (u * finestUnits / one)).length - 1)
      ≤ one * (u * finestUnits / one) := Nat.mul_le_mul_left _ (pow_length_le hpos)
    _ ≤ u * finestUnits := Nat.mul_div_le _ _

/-- **A positive magnitude** has a positive decimal. -/
theorem digits_shortest_pos {u : Nat} (hu : 0 < u) : 0 < (shortest u).digits := by
  obtain ⟨hpos, -⟩ := search_spec 17 (lead_le hu)
  have hstrip := stripZeros_mul (search u 17 ((decimalDigits (u * finestUnits / one)).length - 1)).1
  refine Nat.pos_of_ne_zero fun hzero => ?_
  have hdigits : (stripZeros (search u 17
      ((decimalDigits (u * finestUnits / one)).length - 1)).1).1 = 0 := hzero
  rw [hdigits, Nat.zero_mul] at hstrip
  omega

/-- Powers of ten on both sides, as far as they cancel. -/
theorem mul_pow_le_cancel {x y n k : Nat} (h : x * 10 ^ n ≤ y * 10 ^ k) :
    x * 10 ^ ((n : Int) - k).toNat ≤ y * 10 ^ ((k : Int) - n).toNat := by
  rcases Nat.le_total n k with hle | hle
  · rw [show ((n : Int) - k).toNat = 0 by omega, show ((k : Int) - n).toNat = k - n by omega,
      Nat.pow_zero, Nat.mul_one]
    refine Nat.le_of_mul_le_mul_right ?_ (Nat.pow_pos (by decide) : 0 < 10 ^ n)
    rwa [Nat.mul_assoc, ← Nat.pow_add, Nat.sub_add_cancel hle]
  · rw [show ((n : Int) - k).toNat = n - k by omega, show ((k : Int) - n).toNat = 0 by omega,
      Nat.pow_zero, Nat.mul_one]
    refine Nat.le_of_mul_le_mul_right ?_ (Nat.pow_pos (by decide) : 0 < 10 ^ k)
    rwa [Nat.mul_assoc, ← Nat.pow_add, Nat.sub_add_cancel hle]

/-- **The shortest decimal** is at most the upper midpoint. -/
theorem shortest_le {u : Nat} (hu : 0 < u) :
    2 * (shortest u).digits * one * 10 ^ (shortest u).exponent.toNat
      ≤ (2 * u + step u) * 10 ^ (-(shortest u).exponent).toNat := by
  obtain ⟨-, hle⟩ := search_spec 17 (lead_le hu)
  generalize hs : search u 17 ((decimalDigits (u * finestUnits / one)).length - 1) = s at hle
  have hshortest : shortest u = ⟨(stripZeros s.1).1, (s.2 : Int) + (stripZeros s.1).2 - finest⟩ := by
    unfold shortest
    dsimp only
    rw [hs]
  have hstrip : (stripZeros s.1).1 * 10 ^ (stripZeros s.1).2 = s.1 := stripZeros_mul s.1
  -- zeros at the end move into the power
  have hsplit : 2 * (stripZeros s.1).1 * one * 10 ^ (s.2 + (stripZeros s.1).2)
      ≤ (2 * u + step u) * 10 ^ finest := by
    calc 2 * (stripZeros s.1).1 * one * 10 ^ (s.2 + (stripZeros s.1).2)
        = 2 * ((stripZeros s.1).1 * 10 ^ (stripZeros s.1).2 * 10 ^ s.2 * one) := by ring
      _ = 2 * (s.1 * 10 ^ s.2 * one) := by rw [hstrip]
      _ ≤ (2 * u + step u) * 10 ^ finest := finestUnits_eq ▸ hle
  have hcancel := mul_pow_le_cancel hsplit
  rw [hshortest]
  dsimp only
  rwa [Int.neg_sub, ← Int.natCast_add]

end PageBuilder.Binary64
