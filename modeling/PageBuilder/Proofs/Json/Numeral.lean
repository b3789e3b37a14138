/-
  The numerals that the printer writes, as the reader spells them.

  Programs:       `Number.literal?` — how the text of a number is spelled.
  Specification:  `text?_eq` — the text of a number is the text of that numeral, and
                  `grammatical_literal?` — the grammar has it.
-/
import PageBuilder.Json.Reader
import PageBuilder.Proofs.Binary64.Shortest
import PageBuilder.Proofs.Json.Token

namespace PageBuilder.Json

namespace Literal

/-! ## Numerals -/

/-- A whole number. -/
def ofInt (i : Int) : Literal := ⟨decide (i < 0), Binary64.decimalDigits i.natAbs, none, none⟩

/-- Digits with a point after the first `k`, filled with zeros so that both sides have a digit. -/
def plain (negative : Bool) (ds : List Char) (k : Int) : Literal :=
  if k ≤ 0 then ⟨negative, ['0'], some (List.replicate (-k).toNat '0' ++ ds), none⟩
  else if k < ds.length then ⟨negative, ds.take k.toNat, some (ds.drop k.toNat), none⟩
  else ⟨negative, ds ++ List.replicate (k.toNat - ds.length) '0', some ['0'], none⟩

/-- One digit, the rest behind a point if there is any, and the power of ten. -/
def scientific (negative : Bool) (ds : List Char) (e : Int) : Literal :=
  match ds with
  | d :: r :: rs => ⟨negative, [d], some (r :: rs), some e⟩
  | ds => ⟨negative, ds, none, some e⟩

/-- A decimal. -/
def ofDecimal (negative : Bool) (d : Binary64.Decimal) : Literal :=
  let ds := Binary64.decimalDigits d.digits
  let e := (ds.length : Int) - 1 + d.exponent
  if Binary64.layout.plainFrom ≤ e ∧ e < Binary64.layout.plainTo then plain negative ds (e + 1)
  else scientific negative ds e

/-- A magnitude. -/
def ofUnits (negative : Bool) (u : Nat) : Literal :=
  if u == 0 then ⟨negative, ['0'], some ['0'], none⟩ else ofDecimal negative (Binary64.shortest u)

end Literal

/-- **The numeral of a number**; what is not finite has none. -/
def Number.literal? : Number → Option Literal
  | .whole i => some (.ofInt i)
  | .binary (.finite n u) => some (.ofUnits n u)
  | .binary _ => none

/-! ## Their text -/

namespace Literal

/-- The text of a numeral, its sign aside. -/
def unsigned (n : Literal) : List Char := n.whole ++ n.writeTail

theorem write_eq (n : Literal) : n.write = if n.negative then '-' :: n.unsigned else n.unsigned := rfl

/-- Digits with a point among them are the plain layout. -/
theorem unsigned_plain (negative : Bool) (ds : List Char) (k : Int) :
    (plain negative ds k).unsigned = Binary64.plain ds k := by
  unfold plain Binary64.plain
  split
  · simp [unsigned, writeTail, writeExponent]
  · split <;> simp [unsigned, writeTail, writeExponent]

/-- One digit with a power of ten is the scientific layout. -/
theorem unsigned_scientific (negative : Bool) (ds : List Char) (e : Int) :
    (scientific negative ds e).unsigned = Binary64.scientific Binary64.layout ds e := by
  have hmark : (if e < 0 then ['-'] else Binary64.layout.positiveMark)
      = [if e < 0 then '-' else '+'] := by
    split <;> rfl
  unfold scientific Binary64.scientific
  dsimp only
  rw [hmark]
  rcases ds with _ | ⟨d, _ | ⟨r, rs⟩⟩ <;> simp [unsigned, writeTail, writeExponent]

/-- A magnitude is written as its shortest decimal. -/
theorem unsigned_ofUnits (negative : Bool) (u : Nat) :
    (ofUnits negative u).unsigned = Binary64.magnitudeText u := by
  unfold ofUnits Binary64.magnitudeText
  split
  · rfl
  · unfold ofDecimal Binary64.Decimal.write
    dsimp only
    split
    · exact unsigned_plain ..
    · exact unsigned_scientific ..

/-- The sign is handed on. -/
theorem negative_ofUnits (negative : Bool) (u : Nat) : (ofUnits negative u).negative = negative := by
  unfold ofUnits ofDecimal plain scientific
  dsimp only
  repeat' split
  all_goals rfl

end Literal

/-- **The text of a number** is that of its numeral. -/
theorem Number.text?_eq (n : Number) : n.text? = n.literal?.map Literal.write := by
  rcases n with i | ⟨negative, u⟩ | b | _
  · show some _ = some (Literal.write _)
    rw [Literal.write_eq]
    by_cases hi : i < 0
    · simp [Literal.ofInt, Literal.unsigned, Literal.writeTail, Literal.writeExponent, hi]
    · simp [Literal.ofInt, Literal.unsigned, Literal.writeTail, Literal.writeExponent, hi]
  · show some _ = some (Literal.write _)
    rw [Literal.write_eq, Literal.unsigned_ofUnits, Literal.negative_ofUnits]
  · rfl
  · rfl

/-! ## Their grammar -/

namespace Literal

/-- Digits of which the first is no zero. -/
structure Significant (ds : List Char) : Prop where
  nonempty : ds ≠ []
  digits : ∀ c ∈ ds, c.isDigit = true
  lead : ds.head? ≠ some '0'

theorem significant_decimalDigits {n : Nat} (hn : 0 < n) :
    Significant (Binary64.decimalDigits n) :=
  ⟨Binary64.decimalDigits_ne_nil n, isDigit_of_mem_decimalDigits, Binary64.head?_decimalDigits hn⟩

theorem isDigit_of_mem_replicate {k : Nat} : ∀ c ∈ List.replicate k '0', c.isDigit = true := by
  intro c hc
  rw [(List.mem_replicate.1 hc).2]
  rfl

/-- A whole number is grammatical. -/
theorem grammatical_ofInt (i : Int) : (ofInt i).Grammatical := by
  refine ⟨⟨Binary64.decimalDigits_ne_nil _, isDigit_of_mem_decimalDigits⟩, ?_, nofun⟩
  intro hlead
  rcases Nat.eq_zero_or_pos i.natAbs with hzero | hpos
  · show (Binary64.decimalDigits i.natAbs).length = 1
    rw [hzero]
    rfl
  · exact absurd hlead (Binary64.head?_decimalDigits hpos)

theorem grammatical_zero (negative : Bool) : Grammatical ⟨negative, ['0'], some ['0'], none⟩ := by
  refine ⟨⟨nofun, List.forall_mem_singleton.2 rfl⟩, fun _ => rfl, ?_⟩
  intro ds hds
  rw [← Option.some.inj hds]
  exact ⟨nofun, List.forall_mem_singleton.2 rfl⟩

theorem grammatical_plain (negative : Bool) {ds : List Char} (hds : Significant ds) (k : Int) :
    (plain negative ds k).Grammatical := by
  unfold plain
  split
  · -- below one: a zero, and all digits behind the point
    refine ⟨⟨nofun, List.forall_mem_singleton.2 rfl⟩, fun _ => rfl, ?_⟩
    intro fs hfs
    rw [← Option.some.inj hfs]
    refine ⟨List.append_ne_nil_of_right_ne_nil _ hds.nonempty, ?_⟩
    intro c hc
    rcases List.mem_append.1 hc with hc | hc
    · exact isDigit_of_mem_replicate c hc
    · exact hds.digits c hc
  · next hk =>
    split
    · -- the point is among the digits
      next hlength =>
      have hpos : 0 < k.toNat := by omega
      have hshort : k.toNat < ds.length := by omega
      refine ⟨⟨?_, fun c hc => hds.digits c (List.mem_of_mem_take hc)⟩, ?_, ?_⟩
      · rw [Ne, List.take_eq_nil_iff, not_or]
        exact ⟨Nat.ne_of_gt hpos, hds.nonempty⟩
      · intro hlead
        rw [List.head?_take, if_neg (Nat.ne_of_gt hpos)] at hlead
        exact absurd hlead hds.lead
      · intro fs hfs
        rw [← Option.some.inj hfs]
        refine ⟨?_, fun c hc => hds.digits c (List.mem_of_mem_drop hc)⟩
        rw [Ne, List.drop_eq_nil_iff]
        omega
    · -- all digits stand before the point
      refine ⟨⟨List.append_ne_nil_of_left_ne_nil hds.nonempty _, ?_⟩, ?_, ?_⟩
      · intro c hc
        rcases List.mem_append.1 hc with hc | hc
        · exact hds.digits c hc
        · exact isDigit_of_mem_replicate c hc
      · intro hlead
        obtain ⟨d, rest, hcons⟩ := List.exists_cons_of_ne_nil hds.nonempty
        have hhead := hds.lead
        rw [hcons] at hlead hhead
        exact absurd hlead hhead
      · intro fs hfs
        rw [← Option.some.inj hfs]
        exact ⟨nofun, List.forall_mem_singleton.2 rfl⟩

theorem grammatical_scientific (negative : Bool) {ds : List Char} (hds : Significant ds) (e : Int) :
    (scientific negative ds e).Grammatical := by
  obtain ⟨hnonempty, hdigits, hlead⟩ := hds
  unfold scientific
  split
  · next d r rs =>
    rw [List.forall_mem_cons] at hdigits
    refine ⟨⟨nofun, List.forall_mem_singleton.2 hdigits.1⟩, fun _ => rfl, ?_⟩
    intro fs hfs
    rw [← Option.some.inj hfs]
    exact ⟨nofun, hdigits.2⟩
  · exact ⟨⟨hnonempty, hdigits⟩, fun h => absurd h hlead, nofun⟩

/-- **Every magnitude is written as the grammar has it.** -/
theorem grammatical_ofUnits (negative : Bool) (u : Nat) : (ofUnits negative u).Grammatical := by
  unfold ofUnits
  split
  · exact grammatical_zero negative
  · next hu =>
    have hpos : 0 < u := Nat.pos_of_ne_zero (by simpa using hu)
    have hds := significant_decimalDigits (Binary64.digits_shortest_pos hpos)
    unfold ofDecimal
    dsimp only
    split
    · exact grammatical_plain negative hds _
    · exact grammatical_scientific negative hds _

end Literal

/-- **Numerals are grammatical**. -/
theorem Number.grammatical_literal? {n : Number} {l : Literal} (h : n.literal? = some l) :
    l.Grammatical := by
  rcases n with i | ⟨negative, u⟩ | b | _
  · rw [← Option.some.inj h]
    exact Literal.grammatical_ofInt i
  · rw [← Option.some.inj h]
    exact Literal.grammatical_ofUnits negative u
  · nomatch h
  · nomatch h

end PageBuilder.Json
