/-
  What is written as a number is read as a number.

  The reader makes a number of at most nineteen digits and of a power of ten, each rounded, and then
  rounds their product: near the limit that could overflow, and the text could not be read.

  Specification:  `exists_number?` — the numeral of every number that there is reads as a number.
  Crux:           the shortest decimal is at most half a step above its magnitude, so all magnitudes
                  but the last three are read without overflow whatever their digits are; the last
                  three are looked at one by one.
-/
import PageBuilder.Proofs.Json.Numeral
import PageBuilder.Proofs.Json.Representable

namespace PageBuilder.Json

open Binary64 (one step limit topStep roundUnits)

/-! ## Factors -/

theorem pow52_le_one : 2 ^ 52 ≤ one := by decide +kernel

/-- A positive whole number, rounded. -/
theorem roundUnits_whole_le {n : Nat} (hn : 0 < n) :
    roundUnits (n * one) 1 * 2 ^ 53 ≤ n * one * 2 ^ 53 + n * one := by
  have hlarge : 2 ^ 52 ≤ n * one / 1 := by
    rw [Nat.div_one]
    exact Nat.le_trans pow52_le_one (Nat.le_mul_of_pos_left _ hn)
  have hround := Binary64.roundUnits_relative hlarge
  rwa [Nat.one_mul] at hround

theorem units?_ofNat (n : Nat) : (Binary64.ofNat n).units?
    = if roundUnits (n * one) 1 < limit then some (roundUnits (n * one) 1) else none :=
  Binary64.units?_round false (n * one) 1

/-- Digits that fit a word are never too large. -/
theorem units?_ofNat_word {n : Nat} (hn : n < Number.wordSize) :
    (Binary64.ofNat n).units? = some (roundUnits (n * one) 1) := by
  have hfinite := Binary64.isFinite_ofNat (Nat.le_of_lt hn)
  rw [units?_ofNat, if_pos (Binary64.isFinite_round_iff.1 hfinite)]

/-- A power of ten is rounded up by a part in two to the 53 at most. -/
theorem powerUnits_le (e : Nat) : powerUnits e * 2 ^ 53 ≤ 10 ^ e * one * 2 ^ 53 + 10 ^ e * one := by
  unfold powerUnits
  rw [Nat.pow_eq, units?_ofNat]
  split
  · rw [Option.getD_some]
    exact roundUnits_whole_le (Nat.pow_pos (by decide))
  · rw [Option.getD_none, Nat.zero_mul]
    exact Nat.zero_le _

/-! ## Scaled digits -/

theorem roundUnits_zero : roundUnits (0 * one) 1 = 0 := by decide +kernel

theorem limit_lt_pow : 2 * limit + topStep < 2 * (10 ^ (308 + 1) * one) := by decide +kernel

theorem four_words_lt_limit : 2 * (2 * (Number.wordSize * one) + 1) + 1 < limit := by
  decide +kernel

theorem powerUnits_zero : powerUnits 0 = one := by decide +kernel

/-- One is a factor that changes nothing. -/
theorem isFinite_mulUnits_one {n : Nat} (hn : n < Number.wordSize) :
    (Binary64.mulUnits (roundUnits (n * one) 1) one).isFinite = true := by
  have hround := Binary64.nearestEven_step_le (n * one) 1
  have hmul : n * one ≤ Number.wordSize * one := Nat.mul_le_mul_right _ (Nat.le_of_lt hn)
  have hlimit := four_words_lt_limit
  refine Binary64.isFinite_round _ ?_
  rw [Nat.mul_div_cancel _ Binary64.one_pos]
  rw [Nat.div_one] at hround
  unfold roundUnits
  rw [Nat.div_one]
  omega

/-- **Digits without a power of ten above one** are read. -/
theorem isSome_ofDigits_of_nonpos {n : Nat} {e : Int} (hn : n < Number.wordSize) (he : e ≤ 0) :
    (ofDigits n e).isSome = true := by
  unfold ofDigits
  rw [units?_ofNat_word hn, Option.bind_some]
  split
  · rfl
  · split
    · rfl
    · have hzero : e = 0 := by omega
      rw [hzero, if_neg (by decide), Int.toNat_zero, powerUnits_zero, Binary64.isSome_units?]
      exact isFinite_mulUnits_one hn

/-- **Digits with a power of ten** are read if their value is at most half a step above a magnitude
that is four steps below the limit. -/
theorem isSome_ofDigits_of_le {n e u : Nat} (hn : n < Number.wordSize)
    (hle : 2 * (n * 10 ^ e * one) ≤ 2 * u + topStep) (hu : u + 4 * topStep ≤ limit) :
    (ofDigits n e).isSome = true := by
  unfold ofDigits
  rw [units?_ofNat_word hn, Option.bind_some]
  split
  · rfl
  · next hunits =>
    have hpos : 0 < n := by
      refine Nat.pos_of_ne_zero ?_
      rintro rfl
      exact hunits roundUnits_zero
    -- a higher power of ten would be above the limit by itself
    have hexponent : e ≤ 308 := by
      refine Nat.le_of_not_lt fun hlarge => ?_
      have hpow : ∀ {k}, k ≤ e → 10 ^ k * one ≤ n * 10 ^ e * one := by
        intro k hk
        refine Nat.mul_le_mul_right _ (Nat.le_trans ?_ (Nat.le_mul_of_pos_left _ hpos))
        exact Nat.pow_le_pow_right (by decide) hk
      have hhigh := hpow hlarge
      have hlimit := limit_lt_pow
      omega
    rw [if_neg (by omega), if_neg (by omega), Int.toNat_natCast, Binary64.isSome_units?]
    exact Binary64.isFinite_mulUnits (roundUnits_whole_le hpos) (powerUnits_le e) hle hu

/-- Digits that are kept of a numeral, at their power of ten, are no more than the numeral at its
power. -/
theorem isSome_ofDigits_of_kept {m left v u : Nat} {x : Int} (hm : m < Number.wordSize)
    (hkept : m * 10 ^ left ≤ v)
    (hle : 2 * v * one * 10 ^ x.toNat ≤ (2 * u + topStep) * 10 ^ (-x).toNat)
    (hu : u + 4 * topStep ≤ limit) : (ofDigits m (left + x)).isSome = true := by
  rcases Int.le_total (left + x) 0 with hx | hx
  · exact isSome_ofDigits_of_nonpos hm hx
  · obtain ⟨k, hk⟩ := Int.eq_ofNat_of_zero_le hx
    -- the digits that were dropped go into the power, and the bound is divided by it
    have hpow : left + x.toNat = k + (-x).toNat := by omega
    have hvalue : 2 * (m * 10 ^ k * one) ≤ 2 * u + topStep := by
      refine Nat.le_of_mul_le_mul_right ?_ (Nat.pow_pos (by decide) : 0 < 10 ^ (-x).toNat)
      calc 2 * (m * 10 ^ k * one) * 10 ^ (-x).toNat
          = 2 * m * one * 10 ^ (k + (-x).toNat) := by ring
        _ = 2 * (m * 10 ^ left) * one * 10 ^ x.toNat := by
          rw [← hpow]
          ring
        _ ≤ 2 * v * one * 10 ^ x.toNat :=
          Nat.mul_le_mul_right _ (Nat.mul_le_mul_right _ (Nat.mul_le_mul_left _ hkept))
        _ ≤ (2 * u + topStep) * 10 ^ (-x).toNat := hle
    rw [hk]
    exact isSome_ofDigits_of_le hm hvalue hu

/-! ## Digits that fit a word -/

open Binary64 (numeral)

theorem numeral_cons (n : Nat) (d : Char) (ds : List Char) :
    numeral n (d :: ds) = numeral (n * 10 + (d.toNat - '0'.toNat)) ds := by
  unfold numeral
  rw [Nat.ofDigitChars_cons, Nat.mul_comm]

theorem le_numeral (n : Nat) (ds : List Char) : n * 10 ^ ds.length ≤ numeral n ds := by
  unfold numeral
  rw [Nat.ofDigitChars_eq_ofDigitChars_zero, Nat.mul_comm]
  exact Nat.le_add_right _ _

/-- **What is kept of a numeral**: a word, and with zeros for the digits that are left it is no more
than the numeral. -/
theorem appendDigits_spec {n : Nat} (hn : n < Number.wordSize) (ds : List Char) :
    (appendDigits n ds).1 < Number.wordSize ∧ (appendDigits n ds).2 ≤ ds.length ∧
      (appendDigits n ds).1 * 10 ^ (appendDigits n ds).2 ≤ numeral n ds := by
  induction ds generalizing n with
  | nil => exact ⟨hn, Nat.le_refl 0, Nat.le_of_eq (Nat.mul_one n)⟩
  | cons d ds ih =>
    rw [appendDigits]
    split
    · next hfits =>
      obtain ⟨hword, hleft, hle⟩ := ih hfits
      refine ⟨hword, Nat.le_succ_of_le hleft, ?_⟩
      rw [numeral_cons]
      exact hle
    · -- from the first digit on that does not fit, all are left
      exact ⟨hn, Nat.le_refl _, le_numeral n (d :: ds)⟩

/-- Few digits all fit. -/
theorem appendDigits_short {n : Nat} {ds : List Char} (hds : ∀ c ∈ ds, c.isDigit = true)
    (hn : (n + 1) * 10 ^ ds.length ≤ Number.wordSize) : appendDigits n ds = (numeral n ds, 0) := by
  induction ds generalizing n with
  | nil => rfl
  | cons d ds ih =>
    obtain ⟨hd, hds⟩ := List.forall_mem_cons.1 hds
    have hdigit : d.toNat - '0'.toNat ≤ 9 := by
      obtain ⟨-, hle⟩ := Char.isDigit_iff_toNat.1 hd
      exact Nat.sub_le_sub_right hle _
    -- the bound leaves room for one digit more at each step
    have hnext : (n * 10 + (d.toNat - '0'.toNat) + 1) * 10 ^ ds.length ≤ Number.wordSize := by
      refine Nat.le_trans ?_ hn
      rw [List.length_cons, Nat.pow_succ, Nat.mul_comm (10 ^ ds.length), ← Nat.mul_assoc]
      exact Nat.mul_le_mul_right _ (by omega)
    have hfits : n * 10 + (d.toNat - '0'.toNat) < Number.wordSize :=
      Nat.lt_of_succ_le (Nat.le_trans (Nat.le_mul_of_pos_right _ (Nat.pow_pos (by decide))) hnext)
    rw [appendDigits, if_pos hfits, numeral_cons]
    exact ih hds hnext

/-! ## Numerals -/

namespace Literal

/-- A numeral with a point or an exponent is read from its digits and the power of ten they stand
at, as far as they fit. -/
theorem isSome_number?_of {l : Literal} {m dropped left w : Nat} {ds : List Char}
    (hl : (l.fraction.isNone && l.exponent.isNone) = false)
    (hwhole : appendDigits 0 l.whole = (w, dropped)) (hfraction : l.fraction.getD [] = ds)
    (hds : appendDigits w ds = (m, left))
    (h : (ofDigits m ((dropped : Int) - (ds.length - left : Nat) + l.exponent.getD 0)).isSome
      = true) :
    l.number?.isSome = true := by
  unfold number? binary?
  rw [hl, if_neg Bool.false_ne_true, hwhole]
  dsimp only
  rw [Option.isSome_map]
  -- without a fraction no digit follows the whole part
  cases hfs : l.fraction with
  | none =>
    rw [hfs] at hfraction
    obtain rfl : [] = ds := hfraction
    obtain ⟨rfl, rfl⟩ := Prod.mk.inj hds
    exact h
  | some fs =>
    rw [hfs] at hfraction
    obtain rfl : fs = ds := hfraction
    dsimp only
    rw [hds]
    exact h

theorem word_pos : 0 < Number.wordSize := by decide

theorem pow16_le_word : (0 + 1) * 10 ^ 16 ≤ Number.wordSize := by decide

/-- **A numeral in plain notation** is read. -/
theorem isSome_number?_of_short {l : Literal} {fs : List Char} (hexponent : l.exponent = none)
    (hfraction : l.fraction = some fs) (hdigits : ∀ c ∈ l.whole, c.isDigit = true)
    (hlength : l.whole.length ≤ 16) : l.number?.isSome = true := by
  have hfits : (0 + 1) * 10 ^ l.whole.length ≤ Number.wordSize :=
    Nat.le_trans (Nat.mul_le_mul_left _ (Nat.pow_le_pow_right (by decide) hlength)) pow16_le_word
  have hwhole := appendDigits_short hdigits hfits
  have hw : numeral 0 l.whole < Number.wordSize := by
    obtain ⟨hword, -, -⟩ := appendDigits_spec word_pos l.whole
    rwa [hwhole] at hword
  obtain ⟨hm, -, -⟩ := appendDigits_spec hw fs
  refine isSome_number?_of (by rw [hfraction]; rfl) hwhole (by rw [hfraction, Option.getD_some]) rfl ?_
  refine isSome_ofDigits_of_nonpos hm ?_
  rw [hexponent, Option.getD_none]
  omega

/-- **A plain numeral reads**: it has too few digits to overflow. -/
theorem isSome_number?_plain (negative : Bool) {ds : List Char}
    (hds : ∀ c ∈ ds, c.isDigit = true) {k : Int} (hk : k ≤ 16) :
    (plain negative ds k).number?.isSome = true := by
  unfold plain
  -- all digits behind the point, the point among them, or all in front of it
  split
  · exact isSome_number?_of_short rfl rfl (List.forall_mem_singleton.2 rfl) (Nat.le_add_left 1 15)
  · split
    · refine isSome_number?_of_short rfl rfl (fun c hc => hds c (List.mem_of_mem_take hc)) ?_
      rw [List.length_take]
      omega
    · refine isSome_number?_of_short rfl rfl ?_ ?_
      · intro c hc
        rcases List.mem_append.1 hc with hc | hc
        · exact hds c hc
        · exact isDigit_of_mem_replicate c hc
      · rw [List.length_append, List.length_replicate]
        omega

/-- **A numeral in scientific notation** is read if its value is at most half a step above a
magnitude that is four steps below the limit. -/
theorem isSome_number?_scientific (negative : Bool) {ds : List Char} {x : Int} {u : Nat}
    (hne : ds ≠ []) (hds : ∀ c ∈ ds, c.isDigit = true)
    (hle : 2 * numeral 0 ds * one * 10 ^ x.toNat ≤ (2 * u + topStep) * 10 ^ (-x).toNat)
    (hu : u + 4 * topStep ≤ limit) :
    (scientific negative ds ((ds.length : Int) - 1 + x)).number?.isSome = true := by
  obtain ⟨d, rest, rfl⟩ := List.exists_cons_of_ne_nil hne
  have hd : ∀ c ∈ [d], c.isDigit = true :=
    List.forall_mem_singleton.2 (List.forall_mem_cons.1 hds).1
  have hone : (0 + 1) * 10 ^ [d].length ≤ Number.wordSize :=
    Nat.le_trans (Nat.mul_le_mul_left _ (Nat.pow_le_pow_right (by decide) (Nat.le_add_left 1 15)))
      pow16_le_word
  -- one digit fits the word, so nothing is dropped before the point
  have hfirst := appendDigits_short hd hone
  have hw : numeral 0 [d] < Number.wordSize := by
    obtain ⟨hword, -, -⟩ := appendDigits_spec word_pos [d]
    rwa [hfirst] at hword
  obtain ⟨hm, hleft, hkept⟩ := appendDigits_spec hw rest
  have hwhole : numeral (numeral 0 [d]) rest = numeral 0 (d :: rest) :=
    (Nat.ofDigitChars_append 0).symm
  rw [hwhole] at hkept
  generalize hrest : appendDigits (numeral 0 [d]) rest = kept at hm hleft hkept
  obtain ⟨m, left⟩ := kept
  dsimp only at hm hleft hkept
  have hread := isSome_ofDigits_of_kept hm hkept hle hu
  -- every digit that is read behind the point takes one from the power
  have hexponent : ((0 : Nat) : Int) - (rest.length - left : Nat)
      + (((d :: rest).length : Int) - 1 + x) = left + x := by
    rw [List.length_cons]
    omega
  rw [← hexponent] at hread
  unfold scientific
  cases rest with
  | nil => exact isSome_number?_of rfl hfirst rfl hrest hread
  | cons r rs => exact isSome_number?_of rfl hfirst rfl hrest hread

/-! ## All magnitudes -/

/-- **The last three magnitudes** below the limit. -/
theorem isSome_number?_top : ∀ negative, ∀ k < 3,
    (ofUnits negative (limit - (k + 1) * topStep)).number?.isSome = true := by
  decide +kernel

/-- A magnitude four steps below the limit. -/
theorem isSome_number?_ofDecimal (negative : Bool) {u : Nat} (hpos : 0 < u)
    (hu : u + 4 * topStep ≤ limit) :
    (ofDecimal negative (Binary64.shortest u)).number?.isSome = true := by
  have hds := significant_decimalDigits (Binary64.digits_shortest_pos hpos)
  unfold ofDecimal
  dsimp only
  -- the plain layout has few digits; in the other the power is bounded by the magnitude
  split
  · next hplain =>
    exact isSome_number?_plain negative hds.digits (Int.add_one_le_of_lt hplain.2)
  · refine isSome_number?_scientific negative hds.nonempty hds.digits ?_ hu
    have htop := Binary64.two_le_topStep
    have hstep : step u ≤ topStep := Binary64.step_le_topStep (by omega)
    unfold numeral
    rw [Binary64.ofDigitChars_decimalDigits]
    exact Nat.le_trans (Binary64.shortest_le hpos)
      (Nat.mul_le_mul_right _ (Nat.add_le_add_left hstep _))

/-- **The numeral of a magnitude reads.** -/
theorem isSome_number?_ofUnits (negative : Bool) {u : Nat} (hu : Binary64.isMagnitude u = true) :
    (ofUnits negative u).number?.isSome = true := by
  rcases Binary64.near_limit hu with hbelow | ⟨k, hk, hnear⟩
  · unfold ofUnits
    split
    · exact isSome_number?_of_short rfl rfl (List.forall_mem_singleton.2 rfl) (Nat.le_add_left 1 15)
    · next hzero =>
      have hpos : 0 < u := Nat.pos_of_ne_zero (by simpa using hzero)
      exact isSome_number?_ofDecimal negative hpos hbelow
  · rw [hnear]
    exact isSome_number?_top negative k hk

/-- **A whole number** is read as it was. -/
theorem number?_ofInt {i : Int} (hi : Number.inRange i = true) :
    (ofInt i).number? = some (.whole i) := by
  have hrange : -(Number.halfWord : Int) ≤ i ∧ i < (Number.wordSize : Int) := by
    simpa [Number.inRange] using hi
  have hdigits : numeral 0 (Binary64.decimalDigits i.natAbs) = i.natAbs :=
    Binary64.ofDigitChars_decimalDigits _
  unfold number? ofInt
  dsimp only
  rw [hdigits]
  -- a negative one is read into half a word
  by_cases hneg : i < 0
  · have hroom : 0 < i.natAbs ∧ i.natAbs ≤ Number.halfWord := by omega
    have habs : -(i.natAbs : Int) = i := by omega
    simp only [Option.isNone_none, Bool.and_self, if_true, hneg, hroom, decide_true, habs]
  · have hroom : i.natAbs < Number.wordSize := by omega
    have habs : (i.natAbs : Int) = i := by omega
    simp only [Option.isNone_none, Bool.and_self, if_true, hneg, hroom, decide_false,
      Bool.false_eq_true, if_false, habs]

end Literal

/-! ## All numbers -/

/-- **What is written as a number is read as one**. -/
theorem Number.exists_number? {n : Number} (hn : n.isRepresentable = true) :
    ∃ l, n.literal? = some l ∧ l.number?.isSome = true := by
  rcases n with i | ⟨negative, u⟩ | b | _
  · refine ⟨.ofInt i, rfl, ?_⟩
    rw [Literal.number?_ofInt hn]
    rfl
  · exact ⟨.ofUnits negative u, rfl, Literal.isSome_number?_ofUnits negative hn⟩
  · nomatch hn
  · nomatch hn

end PageBuilder.Json
