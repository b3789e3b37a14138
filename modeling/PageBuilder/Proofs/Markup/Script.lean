/-
  Literals of the script language, as a script reads them.

  Program:        `Script.value?` — the value that a text writes as a literal.
  Specification:  the grammar of JSON, save that a string may stand in single quotes too, and that
                  what a backslash starts is what the script language has there.  A numeral stands for
                  the number that it spells.
  Crux:           only tokens differ from those of JSON; brackets, commas and colons are left to the
                  machine that reads JSON.
-/
import PageBuilder.Json.Reader
import PageBuilder.Proofs.Json.Tokens
import PageBuilder.Proofs.Markup.Reference

namespace PageBuilder.Markup.Script

open Json (Token Spelled Reading Source)

/-! ## Strings -/

/-- What ends a line; behind a backslash it writes nothing. -/
def isLineEnd (c : Char) : Bool := c == '\n' || c == '\r' || c == '\u2028' || c == '\u2029'

/-- What a letter behind a backslash stands for. -/
def escaped : Char → Char
  | 'b' => '\x08'
  | 'f' => '\x0c'
  | 'n' => '\n'
  | 'r' => '\r'
  | 't' => '\t'
  | 'v' => '\x0b'
  | c => c

/-- The unit that one character behind a backslash writes, if it writes one; of the digits only a zero
that no digit follows writes anything. -/
def escapedUnit? (c : Char) (r : List Char) : Option (Option Nat) :=
  if isLineEnd c then some none
  else if c.isDigit then if c = '0' ∧ r.head?.all (!·.isDigit) then some (some 0) else none
  else if c = 'u' ∨ c = 'x' then none
  else some (some (escaped c).toNat)

/-- Digits in braces. -/
def bracedNumeral? (cs : List Char) : Option (Nat × List Char) :=
  match cs.dropWhile (· ≠ '}') with
  | '}' :: r => (radixNumeral? 16 (cs.takeWhile (· ≠ '}'))).bind fun n =>
      if n < 0x110000 then some (n, r) else none
  | _ => none

/-- What stands behind a backslash: the unit that it writes, if any, and the rest. -/
def escape? : List Char → Option (Option Nat × List Char)
  | '\r' :: '\n' :: r => some (none, r)
  | 'x' :: a :: b :: r => (radixNumeral? 16 [a, b]).map fun n => (some n, r)
  | 'u' :: '{' :: r => (bracedNumeral? r).map fun p => (some p.1, p.2)
  | 'u' :: a :: b :: c :: d :: r => (Json.hexValue4? a b c d).map fun n => (some n, r)
  | c :: r => (escapedUnit? c r).map fun u => (u, r)
  | [] => none

/-- Digits in braces are taken off the front. -/
theorem exists_of_bracedNumeral? {cs r : List Char} {n : Nat}
    (h : bracedNumeral? cs = some (n, r)) : ∃ t, cs = t ++ r := by
  unfold bracedNumeral? at h
  split at h
  · next r' hdrop =>
    obtain ⟨m, -, hm⟩ := Option.bind_eq_some_iff.1 h
    split at hm
    · obtain ⟨-, rfl⟩ := Prod.mk.inj (Option.some.inj hm)
      refine ⟨cs.takeWhile (· ≠ '}') ++ ['}'], ?_⟩
      rw [List.append_assoc, List.singleton_append, ← hdrop, List.takeWhile_append_dropWhile]
    · nomatch hm
  · nomatch h

/-- An escape takes the character behind the backslash at least. -/
theorem exists_of_escape? {cs r : List Char} {u : Option Nat} (h : escape? cs = some (u, r)) :
    ∃ c t, cs = c :: (t ++ r) := by
  unfold escape? at h
  -- a line end, two digits, digits in braces, four digits, or one letter
  split at h
  · obtain ⟨-, rfl⟩ := Prod.mk.inj (Option.some.inj h)
    exact ⟨_, ['\n'], rfl⟩
  · next a b r' =>
    obtain ⟨n, -, hn⟩ := Option.map_eq_some_iff.1 h
    obtain ⟨-, rfl⟩ := Prod.mk.inj hn
    exact ⟨_, [a, b], rfl⟩
  · obtain ⟨p, hp, hn⟩ := Option.map_eq_some_iff.1 h
    obtain ⟨-, rfl⟩ := Prod.mk.inj hn
    obtain ⟨t, rfl⟩ := exists_of_bracedNumeral? hp
    exact ⟨_, '{' :: t, rfl⟩
  · next a b c d r' _ =>
    obtain ⟨n, -, hn⟩ := Option.map_eq_some_iff.1 h
    obtain ⟨-, rfl⟩ := Prod.mk.inj hn
    exact ⟨_, [a, b, c, d], rfl⟩
  · obtain ⟨n, -, hn⟩ := Option.map_eq_some_iff.1 h
    obtain ⟨-, rfl⟩ := Prod.mk.inj hn
    exact ⟨_, [], rfl⟩
  · nomatch h

/-- An escape takes something off the text. -/
theorem escape?_length {cs r : List Char} {u : Option Nat} (h : escape? cs = some (u, r)) :
    r.length < cs.length := by
  obtain ⟨c, t, rfl⟩ := exists_of_escape? h
  rw [List.length_cons, List.length_append]
  omega

/-- Read a string up to its closing quote. -/
def scanText (quote : Char) (s : Spelled) : List Char → Option (Option String × List Char)
  | [] => none
  | c :: r =>
    if c = quote then some (s.close, r)
    else if c = '\\' then
      match _h : escape? r with
      | some (u, r') => scanText quote (u.elim s s.unit) r'
      | none => none
    -- the other line ends may stand in a string
    else if c = '\n' ∨ c = '\r' then none
    else scanText quote (s.char c) r
termination_by cs => cs.length
decreasing_by
  · have := escape?_length _h
    simp only [List.length_cons]
    omega
  · exact Nat.lt_succ_self _

/-! ## Tokens -/

/-- The first token of a text that starts with none of the white space, and the rest. -/
def scan? : List Char → Option (Token × List Char)
  | [] => none
  | c :: r =>
    if c = '\'' ∨ c = '"' then
      (scanText c ⟨some [], none⟩ r).map fun p => (.string p.1, p.2)
    else Json.scan? (c :: r)

theorem scanText_length {quote : Char} {s : Spelled} {cs r : List Char} {t : Option String}
    (h : scanText quote s cs = some (t, r)) : r.length < cs.length := by
  fun_induction scanText quote s cs with
  | case1 => nomatch h
  | case2 s r' =>
    obtain ⟨-, rfl⟩ := Prod.mk.inj (Option.some.inj h)
    exact Nat.lt_succ_self _
  | case3 s r' u r'' hescape _ ih =>
    have := escape?_length hescape
    have := ih h
    rw [List.length_cons]
    omega
  | case4 => nomatch h
  | case5 => nomatch h
  | case6 s c r' _ _ _ ih => exact Nat.lt_succ_of_lt (ih h)

theorem scan?_length {cs r : List Char} {t : Token} (h : scan? cs = some (t, r)) :
    r.length < cs.length := by
  unfold scan? at h
  split at h
  · nomatch h
  · split at h
    · obtain ⟨p, hp, heq⟩ := Option.map_eq_some_iff.1 h
      obtain ⟨-, rfl⟩ := Prod.mk.inj heq
      exact Nat.lt_succ_of_lt (scanText_length hp)
    · exact Json.scan?_length h

/-- The tokens of a text. -/
def tokens? (cs : List Char) : Option (List Token) :=
  match _h : cs.dropWhile Json.isSpace with
  | [] => some []
  | c :: r =>
    match _ht : scan? (c :: r) with
    | some (t, rest) => (tokens? rest).map (t :: ·)
    | none => none
termination_by cs.length
decreasing_by
  have := scan?_length _ht
  have := (List.dropWhile_suffix (l := cs) Json.isSpace).length_le
  rw [_h] at this
  omega

/-! ## Literals -/

/-- What tokens spell. -/
def source? (ts : List Token) : Option Source :=
  (ts.foldlM Reading.step? (.value [])).bind fun
    | .finished v => some v
    | _ => none

/-- **The reader**: the value that a literal writes, nesting at most `room` deep. -/
def value? (room : Nat) (cs : List Char) : Option Json :=
  ((tokens? cs).bind source?).bind (Source.value? room)

example : value? 2 "\x7b'a\\'b': [\"\\x41\", -1]\x7d".toList
    = some (.object [("a'b", .array [.string "A", .number (.whole (-1))])]) := by decide +kernel

/-! ## Strings in single quotes -/

theorem scanText_quote (quote : Char) (s : Spelled) (r : List Char) :
    scanText quote s (quote :: r) = some (s.close, r) := by rw [scanText, if_pos rfl]

theorem scanText_plain {quote c : Char} (hquote : c ≠ quote) (hslash : c ≠ '\\')
    (hline : ¬(c = '\n' ∨ c = '\r')) (s : Spelled) (r : List Char) :
    scanText quote s (c :: r) = scanText quote (s.char c) r := by
  rw [scanText, if_neg hquote, if_neg hslash, if_neg hline]

/-- An escape adds what it writes. -/
theorem scanText_escape {quote : Char} (hquote : '\\' ≠ quote) {cs r : List Char} {u : Option Nat}
    (h : escape? cs = some (u, r)) (s : Spelled) :
    scanText quote s ('\\' :: cs) = scanText quote (u.elim s s.unit) r := by
  rw [scanText, if_neg hquote, if_pos rfl]
  split
  · next heq =>
    obtain ⟨rfl, rfl⟩ := Prod.mk.inj (Option.some.inj (h.symm.trans heq))
    rfl
  · next heq => nomatch h.symm.trans heq

/-- An escape of single quotes is one of the language. -/
theorem escape?_of_mem {e c : Char} (h : (e, c) ∈ escapes) (r : List Char) :
    escape? (e :: r) = some (some c.toNat, r) := by
  simp only [escapes, List.mem_cons, Prod.mk.injEq, List.not_mem_nil, or_false] at h
  rcases h with ⟨rfl, rfl⟩ | ⟨rfl, rfl⟩ | ⟨rfl, rfl⟩ | ⟨rfl, rfl⟩ | ⟨rfl, rfl⟩ <;> rfl

/-- **One character** is read as it was written. -/
theorem scanText_bareCharacter (cs : List Char) (c : Char) (r : List Char) :
    scanText '\'' ⟨some cs, none⟩ (bareCharacter c ++ r)
      = scanText '\'' ⟨some (c :: cs), none⟩ r := by
  -- a double quote, an escape, or the character as it is
  rcases singleCharacter_cases c with ⟨rfl, -, hb⟩ | ⟨e, he, -, hb⟩ | ⟨-, hc, -, hb⟩
  · rw [hb]
    exact scanText_plain (by decide) (by decide) (by decide) _ r
  · have hunit : ∀ p ∈ escapes, (⟨some cs, none⟩ : Spelled).unit p.2.toNat
        = ⟨some (p.2 :: cs), none⟩ := by
      simp [escapes, Spelled.unit]
    rw [hb]
    exact (scanText_escape (by decide) (escape?_of_mem he r) _).trans
      (congrArg (scanText '\'' · r) (hunit _ he))
  · rw [hb]
    simp only [escapes, List.map_cons, List.map_nil, List.mem_cons, List.not_mem_nil, or_false,
      not_or] at hc
    exact scanText_plain hc.2.1 hc.1 (not_or.2 ⟨hc.2.2.1, hc.2.2.2.1⟩) _ r

/-- **A string in single quotes** is read as that string. -/
theorem scanText_single (s cs r : List Char) :
    scanText '\'' ⟨some cs, none⟩ (s.flatMap bareCharacter ++ '\'' :: r)
      = some (some (String.ofList (cs.reverse ++ s)), r) := by
  induction s generalizing cs with
  | nil =>
    rw [List.flatMap_nil, List.nil_append, scanText_quote, List.append_nil]
    rfl
  | cons c s ih =>
    rw [List.flatMap_cons, List.append_assoc, scanText_bareCharacter, ih, List.reverse_cons,
      List.append_assoc]
    rfl

/-! ## Tokens -/

/-- **A string in single quotes is scanned as it was.** -/
theorem scan?_single (s : String) (r : List Char) :
    scan? ('\'' :: (s.toList.flatMap bareCharacter ++ '\'' :: r))
      = some (.string (some s), r) := by
  rw [scan?, if_pos (.inl rfl), scanText_single, List.reverse_nil, List.nil_append,
    String.ofList_toList]
  rfl

/-- A token of JSON that is no string. -/
theorem scan?_of_json {cs r : List Char} {t : Token} (h : Json.scan? cs = some (t, r))
    (ht : ∀ s, t ≠ .string s) : scan? cs = some (t, r) := by
  cases cs with
  | nil => nomatch h
  | cons c cs =>
    have hquote : ¬(c = '\'' ∨ c = '"') := by
      rintro (rfl | rfl)
      · nomatch h
      · obtain ⟨p, -, hp⟩ := Option.map_eq_some_iff.1 h
        exact ht _ (Prod.mk.inj hp).1.symm
    rw [scan?, if_neg hquote, h]

/-- A token that has only one text is scanned from it. -/
theorem scan?_fixed {t : Token} {cs : List Char} (h : t.fixed? = some cs) (r : List Char) :
    scan? (cs ++ r) = some (t, r) := by
  cases t with
  | number l => nomatch h
  | string s => nomatch h
  | bool b => cases b <;> obtain rfl := Option.some.inj h <;> exact scan?_of_json rfl nofun
  | _ => obtain rfl := Option.some.inj h; exact scan?_of_json rfl nofun

theorem scan?_number {l : Json.Literal} (hl : l.Grammatical) {r : List Char} (hr : Json.Ends r) :
    scan? (l.write ++ r) = some (.number l, r) := scan?_of_json (Json.scan?_write hl hr) nofun

theorem tokens?_nil : tokens? [] = some [] := by rw [tokens?]; rfl

/-- White space starts no token. -/
theorem isSpace_eq_false_of_scan? {c : Char} {r : List Char} {p : Token × List Char}
    (h : scan? (c :: r) = some p) : Json.isSpace c = false := by
  rw [scan?] at h
  split at h
  · next hc => rcases hc with rfl | rfl <;> rfl
  · exact Reading.isSpace_eq_false_of_scan? h

/-- A text that starts with a token. -/
theorem tokens?_token {cs r : List Char} {t : Token} (h : scan? cs = some (t, r)) :
    tokens? cs = (tokens? r).map (t :: ·) := by
  cases cs with
  | nil => nomatch h
  | cons c cs =>
    -- a token does not start with white space
    have hdrop : (c :: cs).dropWhile Json.isSpace = c :: cs :=
      List.dropWhile_cons_of_neg (by simp [isSpace_eq_false_of_scan? h])
    rw [tokens?]
    split
    · next heq => nomatch hdrop.symm.trans heq
    · next c' r' heq =>
      obtain ⟨rfl, rfl⟩ := List.cons.inj (hdrop.symm.trans heq)
      split
      · next t' r' hscan =>
        obtain ⟨rfl, rfl⟩ := Prod.mk.inj (Option.some.inj (h.symm.trans hscan))
        rfl
      · next hscan => nomatch h.symm.trans hscan

end PageBuilder.Markup.Script
