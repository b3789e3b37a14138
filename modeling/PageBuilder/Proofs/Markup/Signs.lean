/-
  Signs in a text.

  Programs:       `sign` — whether a character is one: a quote, a backslash, a line end, a tab, or a
                  character that tells references apart; none of them is in a token but a string.
                  `signs` — the signs of a text, a backslash and what it is in front of being one.
  Specification:  `signs_le_of_value?` — a literal has at least as many signs as it takes to write the
                  strings of its value.
  Crux:           a string is written with one sign for each of its characters that is one and two for
                  its quotes, and no reader gets a sign for less.
-/
import PageBuilder.Proofs.Json.Strings
import PageBuilder.Proofs.Markup.Script

namespace PageBuilder.Markup

open Json (Token Spelled Reading Source)

/-! ## Counting -/

/-- **One for a sign**.  The letters are those of names of references that no other token has. -/
def sign : Char → Nat
  | '\\' | '\'' | '"' | '\n' | '\r' | '\t' | '&' | '#' | 'm' | 'p' | 'q' => 1
  | _ => 0

theorem sign_le (c : Char) : sign c ≤ 1 := by
  unfold sign
  split <;> decide

theorem sign_of_isDigit {c : Char} (h : c.isDigit = true) : sign c = 0 := by
  unfold sign
  split
  all_goals first | rfl | nomatch h

/-- **The signs** of a text. -/
def signs : List Char → Nat
  | [] => 0
  | '\\' :: _ :: r => 1 + signs r
  | c :: r => sign c + signs r

theorem signs_cons {c : Char} (h : c ≠ '\\') (r : List Char) : signs (c :: r) = sign c + signs r := by
  rw [signs]
  exact fun _ _ heq => absurd heq h

theorem signs_escape (c : Char) (r : List Char) : signs ('\\' :: c :: r) = 1 + signs r := by
  rw [signs]

/-- A character in front takes no sign away, and adds none but itself. -/
theorem signs_cons_bounds (c : Char) (r : List Char) :
    signs r ≤ signs (c :: r) ∧ signs (c :: r) ≤ sign c + signs r := by
  induction r generalizing c with
  | nil =>
    by_cases hc : c = '\\'
    · subst hc
      decide
    · rw [signs_cons hc]
      exact ⟨Nat.zero_le _, Nat.le_refl _⟩
  | cons d r ih =>
    by_cases hc : c = '\\'
    · -- a backslash counts, and so the character behind it does not
      subst hc
      have hslash : sign '\\' = 1 := rfl
      have hbehind := sign_le d
      have := ih d
      rw [signs_escape, hslash]
      omega
    · rw [signs_cons hc]
      exact ⟨Nat.le_add_left _ _, Nat.le_refl _⟩

theorem signs_le_append (cs r : List Char) : signs r ≤ signs (cs ++ r) := by
  induction cs with
  | nil => exact Nat.le_refl _
  | cons c cs ih => exact ih.trans (signs_cons_bounds c _).1

theorem signs_le_of_suffix {r cs : List Char} (h : r <:+ cs) : signs r ≤ signs cs := by
  obtain ⟨t, rfl⟩ := h
  exact signs_le_append t r

/-- The signs among the characters of a string. -/
def stringSigns (s : List Char) : Nat := (s.map sign).sum

theorem stringSigns_cons (c : Char) (s : List Char) :
    stringSigns (c :: s) = sign c + stringSigns s := rfl

theorem stringSigns_append (s t : List Char) :
    stringSigns (s ++ t) = stringSigns s + stringSigns t := by
  rw [stringSigns, List.map_append, List.sum_append]
  rfl

/-- Text without a sign. -/
theorem signs_append {cs : List Char} (h : stringSigns cs = 0) (r : List Char) :
    signs (cs ++ r) = signs r := by
  induction cs with
  | nil => rfl
  | cons c cs ih =>
    obtain ⟨hc, hcs⟩ := Nat.add_eq_zero_iff.1 h
    have hslash : c ≠ '\\' := by
      rintro rfl
      nomatch hc
    rw [List.cons_append, signs_cons hslash, hc, ih hcs, Nat.zero_add]

/-- **The signs that it takes to write a string**, its quotes included. -/
def writtenSigns (s : String) : Nat := 2 + stringSigns s.toList

/-! ## Reading a string -/

/-- The signs of a string so far. -/
def spelledSigns (s : Spelled) : Nat := stringSigns (s.chars.getD [])

/-- A character adds its sign. -/
theorem spelledSigns_char (s : Spelled) (c : Char) :
    spelledSigns (s.char c) ≤ sign c + spelledSigns s := by
  obtain ⟨chars, half⟩ := s
  cases half with
  | some h => exact Nat.zero_le _
  | none =>
    cases chars with
    | none => exact Nat.zero_le _
    | some cs => exact Nat.le_refl _

/-- A unit adds one sign at most. -/
theorem spelledSigns_unit (s : Spelled) (n : Nat) :
    spelledSigns (s.unit n) ≤ 1 + spelledSigns s := by
  have hadded : ∀ (chars : Option (List Char)) (c : Char),
      spelledSigns ⟨chars.map (c :: ·), none⟩ ≤ 1 + spelledSigns ⟨chars, none⟩ := by
    intro chars c
    cases chars with
    | none => exact Nat.zero_le _
    | some cs => exact Nat.add_le_add_right (sign_le c) _
  obtain ⟨chars, half⟩ := s
  unfold Spelled.unit
  -- the second half of a pair, the first half, or a unit by itself
  split
  · split
    · exact Nat.le_add_left _ _
    · split
      · exact Nat.zero_le _
      · exact hadded chars _
  · split
    · exact hadded chars _
    · exact Nat.zero_le _

/-- The quotes are two signs more. -/
theorem writtenSigns_close (s : Spelled) : s.close.elim 0 writtenSigns ≤ 2 + spelledSigns s := by
  obtain ⟨chars, half⟩ := s
  cases half with
  | some h => exact Nat.zero_le _
  | none =>
    cases chars with
    | none => exact Nat.zero_le _
    | some cs =>
      show 2 + stringSigns (String.ofList cs.reverse).toList ≤ 2 + stringSigns cs
      rw [String.toList_ofList, stringSigns, List.map_reverse, List.sum_reverse]
      exact Nat.le_refl _

namespace Script

/-- **A string** is read off at least the signs that it takes to write it. -/
theorem signs_of_scanText {quote : Char} (hquote : quote = '\'' ∨ quote = '"') {s : Spelled}
    {cs r : List Char} {t : Option String} (h : scanText quote s cs = some (t, r)) :
    t.elim 0 writtenSigns + signs r ≤ 1 + spelledSigns s + signs cs := by
  fun_induction scanText quote s cs with
  | case1 => cases h
  | case2 s r' =>
    obtain ⟨rfl, rfl⟩ := Prod.mk.inj (Option.some.inj h)
    have hclose := writtenSigns_close s
    have hsigns : signs (quote :: r') = 1 + signs r' := by
      rcases hquote with rfl | rfl <;> exact signs_cons (by decide) r'
    omega
  | case3 s r' u r'' hescape _ ih =>
    -- what an escape writes is one sign at most, and so is its backslash
    obtain ⟨c, cs, rfl⟩ := exists_of_escape? hescape
    have hrest := signs_le_append cs r''
    have hunit : spelledSigns (u.elim s s.unit) ≤ 1 + spelledSigns s := by
      cases u with
      | none => exact Nat.le_add_left _ _
      | some n => exact spelledSigns_unit s n
    have := ih h
    rw [signs_escape]
    omega
  | case4 => cases h
  | case5 => cases h
  | case6 s c r' _ hslash _ ih =>
    have hchar := spelledSigns_char s c
    have := ih h
    rw [signs_cons hslash]
    omega

/-- **A token has its signs from the text**, which keeps the others. -/
theorem signs_of_scan? {cs r : List Char} {t : Token} (h : scan? cs = some (t, r)) :
    t.weight writtenSigns + signs r ≤ signs cs := by
  cases cs with
  | nil => nomatch h
  | cons c cs =>
    rw [scan?] at h
    -- only a string has signs, and its opening quote is one
    split at h
    · next hquote =>
      obtain ⟨p, hp, heq⟩ := Option.map_eq_some_iff.1 h
      obtain ⟨rfl, rfl⟩ := Prod.mk.inj heq
      have htext : p.1.elim 0 writtenSigns + signs p.2 ≤ 1 + 0 + signs cs :=
        signs_of_scanText hquote hp
      have hsigns : signs (c :: cs) = 1 + signs cs := by
        rcases hquote with rfl | rfl <;> exact signs_cons (by decide) cs
      show p.1.elim 0 writtenSigns + signs p.2 ≤ _
      omega
    · next hquote =>
      have hhead : (c :: cs).head? ≠ some '"' := fun heq => hquote (.inr (Option.some.inj heq))
      obtain ⟨htext, hrest⟩ := Json.rest_of_scan? hhead h
      rw [Token.weight, htext]
      exact (Nat.zero_add _).trans_le (signs_le_of_suffix hrest)

theorem signs_of_tokens? {cs : List Char} {ts : List Token} (h : tokens? cs = some ts) :
    (ts.map (Token.weight writtenSigns)).sum ≤ signs cs := by
  fun_induction tokens? cs generalizing ts with
  | case1 cs hdrop =>
    obtain rfl := Option.some.inj h
    exact Nat.zero_le _
  | case2 cs c r hdrop t rest hscan ih =>
    obtain ⟨us, hus, rfl⟩ := Option.map_eq_some_iff.1 h
    have hfirst := signs_of_scan? hscan
    have hblank := signs_le_of_suffix (List.dropWhile_suffix (l := cs) Json.isSpace)
    have hrest := ih hus
    rw [hdrop] at hblank
    rw [List.map_cons, List.sum_cons]
    omega
  | case3 => nomatch h

/-- **A literal** has at least the signs that it takes to write the strings of its value. -/
theorem signs_le_of_value? {room : Nat} {cs : List Char} {v : Json} (h : value? room cs = some v) :
    Json.weight writtenSigns v ≤ signs cs := by
  obtain ⟨s, hsource, hv⟩ := Option.bind_eq_some_iff.1 h
  obtain ⟨ts, hts, hs⟩ := Option.bind_eq_some_iff.1 hsource
  obtain ⟨state, hrun, hfinished⟩ := Option.bind_eq_some_iff.1 hs
  cases state with
  | finished s' =>
    obtain rfl := Option.some.inj hfinished
    calc Json.weight writtenSigns v
        ≤ s'.weight writtenSigns := Json.weight_le_of_value? writtenSigns s' hv
      _ = 0 + (ts.map (Token.weight writtenSigns)).sum :=
          Reading.weight_foldlM writtenSigns hrun
      _ = (ts.map (Token.weight writtenSigns)).sum := Nat.zero_add _
      _ ≤ signs cs := signs_of_tokens? hts
  | _ => nomatch hfinished

end Script

end PageBuilder.Markup
