/-
  The tokens that the printer writes.

  Programs:       `Literal.write` — a number, as it is spelled, as text.
  Specification:  `scan?_quoted` — a string in quotes is the token of that string;
                  `scan?_write` — the text of a number is the token of that number.
  Crux:           a string ends at its closing quote and a number at the first character that is no
                  part of one, so what comes behind a token does not matter.
-/
import PageBuilder.Json.Printer
import PageBuilder.Json.Source

namespace PageBuilder.Json

/-! ## Strings -/

theorem hexValue?_hexDigit : ∀ n < 16, hexValue? (hexDigit n) = some n := by decide

/-- A control character is spelled by two digits, behind two zeros. -/
theorem hexValue4?_hexDigit {c : Char} (hc : c.toNat < 32) :
    hexValue4? '0' '0' (hexDigit (c.toNat / 16)) (hexDigit (c.toNat % 16)) = some c.toNat := by
  have hzero : hexValue? '0' = some 0 := by decide
  rw [hexValue4?, hzero, hexValue?_hexDigit (c.toNat / 16) (by omega),
    hexValue?_hexDigit (c.toNat % 16) (by omega)]
  show some (((0 * 16 + 0) * 16 + c.toNat / 16) * 16 + c.toNat % 16) = _
  congr 1
  omega

/-- **One character** is scanned as it was written. -/
theorem scanString_escapeChar (cs : List Char) (c : Char) (r : List Char) :
    scanString ⟨some cs, none⟩ (escapeChar c ++ r) = scanString ⟨some (c :: cs), none⟩ r := by
  unfold escapeChar
  -- seven escapes of one letter, one by number, and the character as it is
  split
  · next hc => subst hc; rfl
  split
  · next hc => subst hc; rfl
  split
  · next hc => subst hc; rfl
  split
  · next hc => subst hc; rfl
  split
  · next hc => subst hc; rfl
  split
  · next hc => subst hc; rfl
  split
  · next hc => subst hc; rfl
  split
  · next hc =>
    show scanString ⟨some cs, none⟩ ('\\' :: 'u' :: '0' :: '0' :: hexDigit (c.toNat / 16)
      :: hexDigit (c.toNat % 16) :: r) = _
    rw [scanString, hexValue4?_hexDigit hc]
    dsimp only
    rw [Spelled.unit, if_neg (by omega), if_neg (by omega), Option.map_some, Char.ofNat_toNat]
  · next hquote hslash _ _ _ _ _ hplain =>
    rw [List.cons_append, List.nil_append, scanString]
    · rw [if_neg (by simp [hplain, hslash])]
      rfl
    · exact fun h => hquote h
    · exact fun _ _ _ _ _ h => absurd h hslash
    · exact fun _ _ h => absurd h hslash

/-- **An escaped string is scanned as it was**, behind what was scanned before. -/
theorem scanString_flatMap (s cs r : List Char) :
    scanString ⟨some cs, none⟩ (s.flatMap escapeChar ++ r)
      = scanString ⟨some (s.reverse ++ cs), none⟩ r := by
  induction s generalizing cs with
  | nil => rfl
  | cons c s ih =>
    rw [List.flatMap_cons, List.append_assoc, scanString_escapeChar, ih, List.reverse_cons,
      List.append_assoc]
    rfl

/-- **A string in quotes** is the token of that string. -/
theorem scan?_quoted (s : String) (r : List Char) :
    scan? (quoted s.toList ++ r) = some (.string (some s), r) := by
  have hscan : scanString ⟨some [], none⟩ (s.toList.flatMap escapeChar ++ '"' :: r)
      = some (some s, r) := by
    rw [scanString_flatMap, scanString]
    show some (some (String.ofList (s.toList.reverse ++ []).reverse), r) = _
    rw [List.append_nil, List.reverse_reverse, String.ofList_toList]
  show scan? ('"' :: (s.toList.flatMap escapeChar ++ ['"'] ++ r)) = _
  rw [List.append_assoc, List.singleton_append, scan?, hscan]
  rfl

/-! ## Numbers -/

namespace Literal

/-- An exponent as text, if there is one. -/
def writeExponent : Option Int → List Char
  | none => []
  | some e => 'e' :: (if e < 0 then '-' else '+') :: Binary64.decimalDigits e.natAbs

/-- What stands behind the digits in front of the point. -/
def writeTail (n : Literal) : List Char :=
  match n.fraction with
  | none => writeExponent n.exponent
  | some ds => '.' :: (ds ++ writeExponent n.exponent)

/-- **A number as text**. -/
def write (n : Literal) : List Char :=
  if n.negative then '-' :: (n.whole ++ n.writeTail) else n.whole ++ n.writeTail

/-- A number as the grammar has it: digits in front of the point, of which the first is a zero only
if it is the only one, and digits behind the point if there is one. -/
structure Grammatical (n : Literal) : Prop where
  whole : n.whole ≠ [] ∧ ∀ c ∈ n.whole, c.isDigit = true
  lead : n.whole.head? = some '0' → n.whole.length = 1
  fraction : ∀ ds, n.fraction = some ds → ds ≠ [] ∧ ∀ c ∈ ds, c.isDigit = true

end Literal

/-- A character that can be no part of a number. -/
def Delimits (c : Char) : Prop := c.isDigit = false ∧ c ≠ '.' ∧ c ≠ 'e' ∧ c ≠ 'E'

instance (c : Char) : Decidable (Delimits c) :=
  inferInstanceAs (Decidable (c.isDigit = false ∧ c ≠ '.' ∧ c ≠ 'e' ∧ c ≠ 'E'))

/-- A text in front of which a number ends. -/
def Ends (r : List Char) : Prop := ∀ c ∈ r.head?, Delimits c

/-- A text in front of which digits end. -/
def EndsDigits (r : List Char) : Prop := ∀ c ∈ r.head?, c.isDigit = false

theorem Ends.endsDigits {r : List Char} (h : Ends r) : EndsDigits r := fun c hc => (h c hc).1

/-- Digits are taken as far as they go. -/
theorem takeWhile_digits {ds r : List Char} (hds : ∀ c ∈ ds, c.isDigit = true)
    (hr : EndsDigits r) : (ds ++ r).takeWhile Char.isDigit = ds := by
  rw [List.takeWhile_append_of_pos hds]
  cases r with
  | nil => exact List.append_nil ds
  | cons c r =>
    have hc : c.isDigit = false := hr c rfl
    rw [List.takeWhile_cons_of_neg (by simp [hc]), List.append_nil]

theorem dropWhile_digits {ds r : List Char} (hds : ∀ c ∈ ds, c.isDigit = true)
    (hr : EndsDigits r) : (ds ++ r).dropWhile Char.isDigit = r := by
  rw [List.dropWhile_append_of_pos hds]
  cases r with
  | nil => rfl
  | cons c r =>
    have hc : c.isDigit = false := hr c rfl
    rw [List.dropWhile_cons_of_neg (by simp [hc])]

theorem isDigit_of_mem_decimalDigits {n : Nat} : ∀ c ∈ Binary64.decimalDigits n, c.isDigit = true :=
  fun _ hc => Nat.isDigit_of_mem_toDigits (by decide) (by decide) hc

/-- An exponent is scanned as it was, with the sign that is always written. -/
theorem scanExponent?_write (e : Int) {r : List Char} (hr : EndsDigits r) :
    scanExponent? ((if e < 0 then '-' else '+') :: (Binary64.decimalDigits e.natAbs ++ r))
      = some (e, r) := by
  have hdigits : ∀ c ∈ Binary64.decimalDigits e.natAbs, c.isDigit = true :=
    isDigit_of_mem_decimalDigits
  have htake := takeWhile_digits hdigits hr
  have hdrop := dropWhile_digits hdigits hr
  have hnonempty : (Binary64.decimalDigits e.natAbs).isEmpty = false := by
    rw [List.isEmpty_eq_false_iff]
    exact Binary64.decimalDigits_ne_nil _
  have hvalue : Binary64.numeral 0 (Binary64.decimalDigits e.natAbs) = e.natAbs :=
    Binary64.ofDigitChars_decimalDigits _
  unfold scanExponent?
  by_cases he : e < 0
  · have habs : -(e.natAbs : Int) = e := by omega
    rw [if_pos he]
    simp only [Binary64.takeSign, htake, hdrop, hnonempty, hvalue, habs, Bool.false_eq_true,
      if_true, if_false]
  · have habs : (e.natAbs : Int) = e := by omega
    rw [if_neg he]
    simp only [Binary64.takeSign, htake, hdrop, hnonempty, hvalue, habs, Bool.false_eq_true,
      if_false]

/-- What stands behind the digits in front of the point is scanned as it was. -/
theorem scanTail?_write (negative : Bool) (whole : List Char) (fraction : Option (List Char))
    (exponent : Option Int) {r : List Char} (hr : Ends r) :
    scanTail? ⟨negative, whole, fraction, none⟩ (Literal.writeExponent exponent ++ r)
      = some (⟨negative, whole, fraction, exponent⟩, r) := by
  cases exponent with
  | some e =>
    show scanTail? _ ('e' :: ((if e < 0 then '-' else '+')
      :: (Binary64.decimalDigits e.natAbs ++ r))) = _
    rw [scanTail?, scanExponent?_write e hr.endsDigits]
    rfl
  | none =>
    -- without an exponent, what follows must not look like one
    cases r with
    | nil => rfl
    | cons c r =>
      obtain ⟨-, -, he, hE⟩ := hr c rfl
      show scanTail? _ (c :: r) = _
      rw [scanTail?, if_neg (by simp [he, hE])]

/-- The digits of a fraction end where the exponent begins, or where the number ends. -/
theorem endsDigits_writeExponent (exponent : Option Int) {r : List Char} (hr : Ends r) :
    EndsDigits (Literal.writeExponent exponent ++ r) := by
  cases exponent with
  | some e =>
    intro c hc
    obtain rfl : 'e' = c := Option.some.inj hc
    rfl
  | none => exact hr.endsDigits

/-- The text behind the digits in front of the point ends them. -/
theorem endsDigits_writeTail (n : Literal) {r : List Char} (hr : Ends r) :
    EndsDigits (n.writeTail ++ r) := by
  unfold Literal.writeTail
  split
  · exact endsDigits_writeExponent n.exponent hr
  · intro c hc
    obtain rfl : '.' = c := Option.some.inj hc
    rfl

/-- A number is scanned as it was, its sign aside. -/
theorem scanUnsigned?_write {n : Literal} (hn : n.Grammatical) {r : List Char} (hr : Ends r) :
    scanUnsigned? n.negative (n.whole ++ (n.writeTail ++ r)) = some (n, r) := by
  have htake := takeWhile_digits hn.whole.2 (endsDigits_writeTail n hr)
  have hdrop := dropWhile_digits hn.whole.2 (endsDigits_writeTail n hr)
  have hwhole : (n.whole.isEmpty || (n.whole.head? == some '0' && 1 < n.whole.length)) = false := by
    rw [Bool.or_eq_false_iff, List.isEmpty_eq_false_iff, Bool.and_eq_false_iff]
    refine ⟨hn.whole.1, ?_⟩
    by_cases hzero : n.whole.head? = some '0'
    · exact Or.inr (by simp [hn.lead hzero])
    · exact Or.inl (by simp [hzero])
  unfold scanUnsigned?
  simp only [htake, hdrop, hwhole]
  have htail := scanTail?_write n.negative n.whole n.fraction n.exponent hr
  unfold Literal.writeTail
  cases hfraction : n.fraction with
  | some ds =>
    obtain ⟨hne, hds⟩ := hn.fraction ds hfraction
    have hafter := endsDigits_writeExponent n.exponent hr
    have hnonempty : ds.isEmpty = false := List.isEmpty_eq_false_iff.2 hne
    rw [hfraction] at htail
    simp only [List.cons_append, List.append_assoc, takeWhile_digits hds hafter,
      dropWhile_digits hds hafter, hnonempty]
    rw [← hfraction] at htail ⊢
    exact htail
  | none =>
    -- a point is neither how an exponent starts nor what may stand behind a number
    have hpoint : ∀ s, Literal.writeExponent n.exponent ++ r ≠ '.' :: s := by
      intro s h
      cases hexponent : n.exponent with
      | some e =>
        rw [hexponent] at h
        nomatch (List.cons.inj h).1
      | none =>
        rw [hexponent] at h
        have hr' : r = '.' :: s := h
        exact (hr '.' (by rw [hr']; rfl)).2.1 rfl
    dsimp only
    split
    · nomatch ‹false = true›
    · split
      · next heq => exact absurd heq (hpoint _)
      · rw [← hfraction]
        exact htail

/-- A token that starts with a digit is a number. -/
theorem scan?_digit {c : Char} (hc : c.isDigit = true) (r : List Char) :
    scan? (c :: r) = (scanUnsigned? false (c :: r)).map fun (n, r) => (.number n, r) := by
  rw [scan?] <;> exact fun _ h => absurd ((List.cons.inj h).1 ▸ hc) (by decide)

/-- **The text of a number** is the token of that number. -/
theorem scan?_write {n : Literal} (hn : n.Grammatical) {r : List Char} (hr : Ends r) :
    scan? (n.write ++ r) = some (.number n, r) := by
  have hscan := scanUnsigned?_write hn hr
  unfold Literal.write
  -- a sign is taken before the digits; without one the first digit tells a number
  cases hnegative : n.negative with
  | true =>
    rw [hnegative] at hscan
    rw [if_pos rfl, List.cons_append, List.append_assoc, scan?, hscan]
    rfl
  | false =>
    rw [hnegative] at hscan
    rw [if_neg Bool.false_ne_true, List.append_assoc]
    obtain ⟨c, ds, hds⟩ := List.exists_cons_of_ne_nil hn.whole.1
    have hc : c.isDigit = true := hn.whole.2 c (hds ▸ List.mem_cons_self)
    rw [hds, List.cons_append] at hscan ⊢
    rw [scan?_digit hc, hscan]
    rfl

end PageBuilder.Json
