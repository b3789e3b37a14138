/-
  Character references, as a page is read.

  Programs:       `decodeReferences` — the text that an attribute value stands for.
  Specification:  `decodeReferences_escapeAttribute`, `decodeReferences_escapeText` — what is escaped
                  comes back; `decodeReferences_single` — a string in single quotes comes back but for
                  the quotes, if decoding leaves the string itself alone.
  Crux:           `Unescaped.span_single` — a reference is made of letters and digits, a hash and a
                  semicolon, and single quotes escape none of them; so a reference in the string
                  stands in its literal as it is, and none reaches over an escape or over the closing
                  quote.
-/
import PageBuilder.Json.Source
import PageBuilder.Markup.Escape
import PageBuilder.Markup.Literal

namespace PageBuilder.Markup

/-! ## References -/

/-- The characters that numbers from `0x80` on have instead of controls. -/
def controlCharacters : List Nat :=
  [0x20AC, 0x81, 0x201A, 0x0192, 0x201E, 0x2026, 0x2020, 0x2021, 0x02C6, 0x2030, 0x0160, 0x2039,
   0x0152, 0x8D, 0x017D, 0x8F, 0x90, 0x2018, 0x2019, 0x201C, 0x201D, 0x2022, 0x2013, 0x2014, 0x02DC,
   0x2122, 0x0161, 0x203A, 0x0153, 0x9D, 0x017E, 0x0178]

/-- The character of a number; one that no character has gives the replacement character. -/
def numberedCharacter (n : Nat) : Char :=
  if n = 0 ∨ ¬ n.isValidChar then '\uFFFD'
  else if 0x80 ≤ n then Char.ofNat (controlCharacters.getD (n - 0x80) n)
  else Char.ofNat n

/-- The character of a name; there are only those that markup itself is written with. -/
def namedCharacter? : List Char → Option Char
  | ['a', 'm', 'p'] => some '&'
  | ['l', 't'] => some '<'
  | ['g', 't'] => some '>'
  | ['q', 'u', 'o', 't'] => some '"'
  | _ => none

/-- A digit to a radix. -/
def isRadixDigit (radix : Nat) (c : Char) : Bool := (Json.hexValue? c).any fun d => d < radix

/-- Digits as a number, if there are any and each is one to the radix. -/
def radixNumeral? (radix : Nat) (ds : List Char) : Option Nat :=
  if ds.isEmpty || ds.any (!isRadixDigit radix ·) then none
  else some (ds.foldl (fun n c => n * radix + (Json.hexValue? c).getD 0) 0)

/-- A text behind a character, if it starts with that one. -/
def behind? (c : Char) : List Char → Option (List Char)
  | [] => none
  | d :: r => if d = c then some r else none

/-- A text behind the semicolon it starts with, if it starts with one. -/
def skipSemicolon (cs : List Char) : List Char := (behind? ';' cs).getD cs

/-- A reference by number has as many digits as there are. -/
def numberedReference? (radix : Nat) (cs : List Char) : Option (Char × List Char) :=
  (radixNumeral? radix (cs.takeWhile (isRadixDigit radix))).map fun n =>
    (numberedCharacter n, skipSemicolon (cs.dropWhile (isRadixDigit radix)))

/-- A reference by name is none in front of an equals sign. -/
def namedReference? (cs : List Char) : Option (Char × List Char) :=
  let rest := cs.dropWhile Char.isAlphanum
  if (behind? '=' rest).isSome then none
  else (namedCharacter? (cs.takeWhile Char.isAlphanum)).map fun c => (c, skipSemicolon rest)

/-- **The reference behind an ampersand**: its character, and the text behind it.  It may end without
a semicolon. -/
def reference? (cs : List Char) : Option (Char × List Char) :=
  match behind? '#' cs with
  | some r =>
    match (behind? 'x' r).or (behind? 'X' r) with
    | some r => numberedReference? 16 r
    | none => numberedReference? 10 r
  | none => namedReference? cs

/-- What a text was behind is in front of it. -/
theorem eq_of_behind? {c : Char} {cs r : List Char} (h : behind? c cs = some r) :
    cs = c :: r := by
  cases cs with
  | nil => nomatch h
  | cons d cs =>
    rw [behind?] at h
    split at h
    · next heq => rw [heq, Option.some.inj h]
    · nomatch h

/-- Skipping leaves an end of the text. -/
theorem exists_skipSemicolon (cs : List Char) : ∃ t, cs = t ++ skipSemicolon cs := by
  unfold skipSemicolon
  cases h : behind? ';' cs with
  | none => exact ⟨[], rfl⟩
  | some r => exact ⟨[';'], eq_of_behind? h⟩

theorem exists_of_numberedReference? {radix : Nat} {cs r : List Char} {c : Char}
    (h : numberedReference? radix cs = some (c, r)) : ∃ t, cs = t ++ r := by
  obtain ⟨n, -, heq⟩ := Option.map_eq_some_iff.1 h
  obtain ⟨-, rfl⟩ := Prod.mk.inj heq
  obtain ⟨t, ht⟩ := exists_skipSemicolon (cs.dropWhile (isRadixDigit radix))
  refine ⟨cs.takeWhile (isRadixDigit radix) ++ t, ?_⟩
  rw [List.append_assoc, ← ht, List.takeWhile_append_dropWhile]

/-- A reference by name has the name in front of what it leaves. -/
theorem exists_of_namedReference? {cs r : List Char} {c : Char}
    (h : namedReference? cs = some (c, r)) :
    ∃ name t, namedCharacter? name = some c ∧ cs = name ++ (t ++ r) := by
  unfold namedReference? at h
  dsimp only at h
  split at h
  · nomatch h
  · obtain ⟨d, hd, heq⟩ := Option.map_eq_some_iff.1 h
    obtain ⟨rfl, rfl⟩ := Prod.mk.inj heq
    obtain ⟨t, ht⟩ := exists_skipSemicolon (cs.dropWhile Char.isAlphanum)
    exact ⟨_, t, hd, by rw [← ht, List.takeWhile_append_dropWhile]⟩

/-- **A reference** is a name, or it starts with a hash. -/
theorem reference?_cases {cs r : List Char} {c : Char} (h : reference? cs = some (c, r)) :
    (∃ name t, namedCharacter? name = some c ∧ cs = name ++ (t ++ r)) ∨ ∃ t, cs = '#' :: (t ++ r) := by
  unfold reference? at h
  -- by number, to one radix or the other, or by name
  split at h
  · next r' hhash =>
    obtain rfl := eq_of_behind? hhash
    refine .inr ?_
    split at h
    · next r'' hmark =>
      obtain ⟨t, rfl⟩ := exists_of_numberedReference? h
      rcases Option.or_eq_some_iff.1 hmark with hx | ⟨-, hX⟩
      · exact ⟨'x' :: t, congrArg _ (eq_of_behind? hx)⟩
      · exact ⟨'X' :: t, congrArg _ (eq_of_behind? hX)⟩
    · obtain ⟨t, rfl⟩ := exists_of_numberedReference? h
      exact ⟨t, rfl⟩
  · exact .inl (exists_of_namedReference? h)

/-- A reference takes something off the text. -/
theorem reference?_length {cs r : List Char} {c : Char} (h : reference? cs = some (c, r)) :
    r.length < cs.length := by
  rcases reference?_cases h with ⟨name, t, hname, rfl⟩ | ⟨t, rfl⟩
  · have hpos : 0 < name.length := by
      cases name with
      | nil => nomatch hname
      | cons => exact Nat.succ_pos _
    rw [List.length_append, List.length_append]
    omega
  · rw [List.length_cons, List.length_append]
    omega

/-- **Decoding**: every reference gives its character; an ampersand that starts none stays. -/
def decodeReferences : List Char → List Char
  | [] => []
  | c :: r =>
    if c = '&' then
      match _h : reference? r with
      | some (d, r') => d :: decodeReferences r'
      | none => c :: decodeReferences r
    else c :: decodeReferences r
termination_by cs => cs.length
decreasing_by
  · have := reference?_length _h
    simp only [List.length_cons]
    omega
  · exact Nat.lt_succ_self _
  · exact Nat.lt_succ_self _

@[simp] theorem decodeReferences_nil : decodeReferences [] = [] := by rw [decodeReferences]

theorem decodeReferences_cons {c : Char} (h : c ≠ '&') (r : List Char) :
    decodeReferences (c :: r) = c :: decodeReferences r := by rw [decodeReferences, if_neg h]

/-- Text without an ampersand stays. -/
theorem decodeReferences_append {cs : List Char} (h : '&' ∉ cs) (r : List Char) :
    decodeReferences (cs ++ r) = cs ++ decodeReferences r := by
  induction cs with
  | nil => rfl
  | cons c cs ih =>
    obtain ⟨hc, hcs⟩ := not_or.1 (mt List.mem_cons.2 h)
    rw [List.cons_append, decodeReferences_cons (Ne.symm hc), ih hcs, List.cons_append]

/-- An ampersand that starts no reference stays. -/
theorem decodeReferences_ampersand {r : List Char} (h : reference? r = none) :
    decodeReferences ('&' :: r) = '&' :: decodeReferences r := by
  rw [decodeReferences, if_pos rfl]
  split
  · next heq => nomatch h.symm.trans heq
  · rfl

/-- A reference gives its character. -/
theorem decodeReferences_reference {r r' : List Char} {d : Char} (h : reference? r = some (d, r')) :
    decodeReferences ('&' :: r) = d :: decodeReferences r' := by
  rw [decodeReferences, if_pos rfl]
  split
  · next heq =>
    obtain ⟨rfl, rfl⟩ := Prod.mk.inj (Option.some.inj (h.symm.trans heq))
    rfl
  · next heq => nomatch h.symm.trans heq

/-- Decoding adds nothing. -/
theorem length_decodeReferences_le (cs : List Char) : (decodeReferences cs).length ≤ cs.length := by
  fun_induction decodeReferences cs with
  | case1 => exact Nat.le_refl 0
  | case2 r d r' h ih =>
    have := reference?_length h
    simp only [List.length_cons]
    omega
  | case3 r h ih => exact Nat.succ_le_succ ih
  | case4 c r hc ih => exact Nat.succ_le_succ ih

/-- Text that decoding leaves alone has no reference anywhere. -/
theorem decodeReferences_cons_eq_self {c : Char} {cs : List Char}
    (h : decodeReferences (c :: cs) = c :: cs) :
    decodeReferences cs = cs ∧ (c = '&' → reference? cs = none) := by
  by_cases hc : c = '&'
  · subst hc
    cases href : reference? cs with
    | none =>
      rw [decodeReferences_ampersand href] at h
      exact ⟨(List.cons.inj h).2, fun _ => rfl⟩
    | some p =>
      -- a reference is longer than its character
      obtain ⟨d, r⟩ := p
      rw [decodeReferences_reference href] at h
      have hlength := congrArg List.length (List.cons.inj h).2
      have := length_decodeReferences_le r
      have := reference?_length href
      omega
  · rw [decodeReferences_cons hc] at h
    exact ⟨(List.cons.inj h).2, fun h => absurd h hc⟩

example : decodeReferences "&#39;&amp;lt; &x; &#x41 &amp=&lt".toList = "'&lt; &x; A &amp=<".toList := by
  decide +kernel

/-! ## What is escaped comes back -/

/-- What is decoded character by character is decoded as a whole. -/
theorem decodeReferences_flatMap {escape : Char → List Char}
    (h : ∀ c r, decodeReferences (escape c ++ r) = c :: decodeReferences r) (s : List Char) :
    decodeReferences (s.flatMap escape) = s := by
  induction s with
  | nil => exact decodeReferences_nil
  | cons c s ih => rw [List.flatMap_cons, h, ih]

/-- A character inside an attribute is decoded back. -/
theorem decodeReferences_attributeCharacter (c : Char) (r : List Char) :
    decodeReferences (attributeCharacter c ++ r) = c :: decodeReferences r := by
  unfold attributeCharacter
  split
  · next hc => subst hc; exact decodeReferences_reference rfl
  split
  · next hc => subst hc; exact decodeReferences_reference rfl
  · next hc _ => exact decodeReferences_cons hc r

theorem decodeReferences_textCharacter (c : Char) (r : List Char) :
    decodeReferences (textCharacter c ++ r) = c :: decodeReferences r := by
  unfold textCharacter
  split
  · next hc => subst hc; exact decodeReferences_reference rfl
  split
  · next hc => subst hc; exact decodeReferences_reference rfl
  split
  · next hc => subst hc; exact decodeReferences_reference rfl
  split
  · next hc => subst hc; exact decodeReferences_reference rfl
  split
  · next hc => subst hc; exact decodeReferences_reference rfl
  · next hc _ _ _ _ => exact decodeReferences_cons hc r

/-- **A plain attribute** stands for its value. -/
theorem decodeReferences_escapeAttribute (s : String) :
    decodeReferences (escapeAttribute s).toList = s.toList := by
  rw [escapeAttribute, String.toList_ofList]
  exact decodeReferences_flatMap decodeReferences_attributeCharacter s.toList

/-- **Text between tags** stands for itself. -/
theorem decodeReferences_escapeText (s : String) :
    decodeReferences (escapeText s).toList = s.toList := by
  rw [escapeText, String.toList_ofList]
  exact decodeReferences_flatMap decodeReferences_textCharacter s.toList

/-! ## Strings in single quotes -/

/-- A character inside single quotes, as it stands there once references are decoded. -/
def bareCharacter (c : Char) : List Char := if c = '"' then ['"'] else singleCharacter c

/-- Characters behind a backslash, each with what it stands for there. -/
def escapes : List (Char × Char) :=
  [('\\', '\\'), ('\'', '\''), ('n', '\n'), ('r', '\r'), ('t', '\t')]

/-- **A character inside single quotes** is a reference, or a pair, or itself. -/
theorem singleCharacter_cases (c : Char) :
    (c = '"' ∧ singleCharacter c = ['&', 'q', 'u', 'o', 't', ';'] ∧ bareCharacter c = [c]) ∨
    (∃ e, (e, c) ∈ escapes ∧ singleCharacter c = ['\\', e] ∧ bareCharacter c = ['\\', e]) ∨
    (c ≠ '"' ∧ c ∉ escapes.map Prod.snd ∧ singleCharacter c = [c] ∧ bareCharacter c = [c]) := by
  -- the double quote becomes a reference, five characters are escaped, and the others stay
  by_cases hquote : c = '"'
  · subst hquote
    exact .inl ⟨rfl, rfl, rfl⟩
  · refine .inr ?_
    rw [bareCharacter, if_neg hquote]
    by_cases hmem : c ∈ escapes.map Prod.snd
    · obtain ⟨p, hp, rfl⟩ := List.mem_map.1 hmem
      refine .inl ⟨p.1, hp, ?_⟩
      have hpairs : ∀ p ∈ escapes, singleCharacter p.2 = ['\\', p.1] := by decide
      exact ⟨hpairs p hp, hpairs p hp⟩
    · have hplain : singleCharacter c = [c] := by
        simp only [escapes, List.map_cons, List.map_nil, List.mem_cons, List.not_mem_nil, or_false,
          not_or] at hmem
        obtain ⟨hslash, hsingle, hn, hr, ht⟩ := hmem
        rw [singleCharacter, if_neg hslash, if_neg hsingle, if_neg hquote, if_neg hn, if_neg hr,
          if_neg ht]
      exact .inr ⟨hquote, hmem, hplain, hplain⟩

/-- Decoding passes an escape, and makes a quote of the reference to one. -/
theorem decodeReferences_singleCharacter {c : Char} (hc : c ≠ '&') (r : List Char) :
    decodeReferences (singleCharacter c ++ r) = bareCharacter c ++ decodeReferences r := by
  rcases singleCharacter_cases c with ⟨rfl, hs, hb⟩ | ⟨e, he, hs, hb⟩ | ⟨-, -, hs, hb⟩
  · rw [hs, hb]
    exact decodeReferences_reference rfl
  · have hne : e ≠ '&' := (by decide : ∀ p ∈ escapes, p.1 ≠ '&') _ he
    rw [hs, hb]
    exact (decodeReferences_cons (by decide) _).trans
      (congrArg ('\\' :: ·) (decodeReferences_cons hne r))
  · rw [hs, hb]
    exact decodeReferences_cons hc r

/-- A class of characters that stand in single quotes as they are, and that no escape starts with. -/
structure Unescaped (p : Char → Bool) : Prop where
  quote : p '"' = false
  ampersand : p '&' = false
  pairs : ∀ e ∈ escapes, p e.2 = false

/-- Such a character stands in single quotes as it is. -/
theorem Unescaped.singleCharacter_eq {p : Char → Bool} (hp : Unescaped p) {c : Char}
    (hc : p c = true) : singleCharacter c = [c] := by
  rcases singleCharacter_cases c with ⟨rfl, -⟩ | ⟨e, he, -⟩ | ⟨-, -, hs, -⟩
  · nomatch hp.quote.symm.trans hc
  · nomatch (hp.pairs _ he).symm.trans hc
  · exact hs

/-- Any other character starts with one that is not of the class, escaped or not. -/
theorem Unescaped.head_eq_false {p : Char → Bool} (hp : Unescaped p) {c : Char}
    (hc : p c = false) (r : List Char) :
    ∃ d cs, singleCharacter c ++ r = d :: cs ∧ p d = false := by
  rcases singleCharacter_cases c with ⟨-, hs, -⟩ | ⟨e, -, hs, -⟩ | ⟨-, -, hs, -⟩
  · exact ⟨_, _, congrArg (· ++ r) hs, hp.ampersand⟩
  · exact ⟨_, _, congrArg (· ++ r) hs, hp.pairs ('\\', '\\') (by decide)⟩
  · exact ⟨_, _, congrArg (· ++ r) hs, hc⟩

/-- **Single quotes leave such characters alone**, and escapes end them. -/
theorem Unescaped.span_single {p : Char → Bool} (hp : Unescaped p) (s r : List Char) :
    (s.flatMap singleCharacter ++ '\'' :: r).takeWhile p = s.takeWhile p ∧
    (s.flatMap singleCharacter ++ '\'' :: r).dropWhile p
      = (s.dropWhile p).flatMap singleCharacter ++ '\'' :: r := by
  induction s with
  | nil =>
    have hclose : ¬ p '\'' = true := by simp [hp.pairs ('\'', '\'') (by decide)]
    exact ⟨List.takeWhile_cons_of_neg hclose, List.dropWhile_cons_of_neg hclose⟩
  | cons c s ih =>
    -- a character of the class is itself; any other ends the run, escaped or not
    cases hc : p c with
    | true =>
      rw [List.flatMap_cons, hp.singleCharacter_eq hc, List.append_assoc, List.singleton_append,
        List.takeWhile_cons_of_pos hc, List.takeWhile_cons_of_pos hc, List.dropWhile_cons_of_pos hc,
        List.dropWhile_cons_of_pos hc, ih.1]
      exact ⟨rfl, ih.2⟩
    | false =>
      obtain ⟨d, cs, hd, hhead⟩ := hp.head_eq_false hc (s.flatMap singleCharacter ++ '\'' :: r)
      rw [List.takeWhile_cons_of_neg (by simp [hc]), List.dropWhile_cons_of_neg (by simp [hc]),
        List.flatMap_cons, List.append_assoc, hd, List.takeWhile_cons_of_neg (by simp [hhead]),
        List.dropWhile_cons_of_neg (by simp [hhead])]
      exact ⟨rfl, rfl⟩

/-- A character that stands in single quotes as it is stands first there if it does in the string. -/
theorem behind?_single {d : Char} (hd : Unescaped (· == d)) (s r : List Char) :
    behind? d (s.flatMap singleCharacter ++ '\'' :: r)
      = (behind? d s).map fun t => t.flatMap singleCharacter ++ '\'' :: r := by
  cases s with
  | nil =>
    have hclose : '\'' ≠ d := beq_eq_false_iff_ne.1 (hd.pairs ('\'', '\'') (by decide))
    exact if_neg hclose
  | cons c s =>
    -- the character itself, or one whose first sign is another
    by_cases hc : c = d
    · subst hc
      rw [List.flatMap_cons, hd.singleCharacter_eq (beq_self_eq_true c), behind?, if_pos rfl]
      exact if_pos rfl
    · obtain ⟨e, cs, he, hhead⟩ :=
        hd.head_eq_false (beq_eq_false_iff_ne.2 hc) (s.flatMap singleCharacter ++ '\'' :: r)
      rw [List.flatMap_cons, List.append_assoc, he, behind?, if_neg (beq_eq_false_iff_ne.1 hhead),
        behind?, if_neg hc, Option.map_none]

/-- A semicolon behind a reference is skipped in single quotes as it is outside. -/
theorem skipSemicolon_single (s r : List Char) :
    skipSemicolon (s.flatMap singleCharacter ++ '\'' :: r)
      = (skipSemicolon s).flatMap singleCharacter ++ '\'' :: r := by
  unfold skipSemicolon
  rw [behind?_single ⟨rfl, rfl, by decide⟩]
  cases behind? ';' s <;> rfl

/-- A reference by number in single quotes is the one outside. -/
theorem numberedReference?_single {radix : Nat} (hradix : Unescaped (isRadixDigit radix))
    (s r : List Char) : numberedReference? radix (s.flatMap singleCharacter ++ '\'' :: r)
      = (numberedReference? radix s).map fun p => (p.1, p.2.flatMap singleCharacter ++ '\'' :: r) := by
  obtain ⟨htake, hdrop⟩ := hradix.span_single s r
  rw [numberedReference?, htake, hdrop, skipSemicolon_single, numberedReference?, Option.map_map]
  rfl

theorem namedReference?_single (s r : List Char) :
    namedReference? (s.flatMap singleCharacter ++ '\'' :: r)
      = (namedReference? s).map fun p => (p.1, p.2.flatMap singleCharacter ++ '\'' :: r) := by
  have hname : Unescaped Char.isAlphanum := ⟨rfl, rfl, by decide⟩
  obtain ⟨htake, hdrop⟩ := hname.span_single s r
  unfold namedReference?
  dsimp only
  rw [htake, hdrop, skipSemicolon_single, behind?_single ⟨rfl, rfl, by decide⟩, Option.isSome_map]
  split
  · rfl
  · rw [Option.map_map]
    rfl

/-- **No reference reaches over an escape**: in single quotes there are those of the string. -/
theorem reference?_single (s r : List Char) :
    reference? (s.flatMap singleCharacter ++ '\'' :: r)
      = (reference? s).map fun p => (p.1, p.2.flatMap singleCharacter ++ '\'' :: r) := by
  unfold reference?
  rw [behind?_single ⟨rfl, rfl, by decide⟩]
  -- first the number sign is looked for, then the mark of the radix, in either case
  cases behind? '#' s with
  | none => exact namedReference?_single s r
  | some t =>
    dsimp only [Option.map_some]
    rw [behind?_single ⟨rfl, rfl, by decide⟩, behind?_single ⟨rfl, rfl, by decide⟩]
    have hten : Unescaped (isRadixDigit 10) := ⟨rfl, rfl, by decide⟩
    have hsixteen : Unescaped (isRadixDigit 16) := ⟨rfl, rfl, by decide⟩
    cases behind? 'x' t with
    | some u => exact numberedReference?_single hsixteen u r
    | none =>
      cases behind? 'X' t with
      | some u => exact numberedReference?_single hsixteen u r
      | none => exact numberedReference?_single hten t r

/-- A string in single quotes loses a reference to its character. -/
theorem decodeReferences_single_reference {s t : List Char} {d : Char}
    (h : reference? s = some (d, t)) (r : List Char) :
    decodeReferences (('&' :: s).flatMap singleCharacter ++ '\'' :: r)
      = d :: decodeReferences (t.flatMap singleCharacter ++ '\'' :: r) := by
  have href : reference? (s.flatMap singleCharacter ++ '\'' :: r)
      = some (d, t.flatMap singleCharacter ++ '\'' :: r) := by
    rw [reference?_single, h, Option.map_some]
  exact decodeReferences_reference href

theorem decodeReferences_single_ampersand {s : List Char} (h : reference? s = none)
    (r : List Char) : decodeReferences (('&' :: s).flatMap singleCharacter ++ '\'' :: r)
      = '&' :: decodeReferences (s.flatMap singleCharacter ++ '\'' :: r) := by
  have href : reference? (s.flatMap singleCharacter ++ '\'' :: r) = none := by
    rw [reference?_single, h, Option.map_none]
  exact decodeReferences_ampersand href

theorem decodeReferences_single_cons {c : Char} (hc : c ≠ '&') (s r : List Char) :
    decodeReferences ((c :: s).flatMap singleCharacter ++ '\'' :: r)
      = bareCharacter c ++ decodeReferences (s.flatMap singleCharacter ++ '\'' :: r) := by
  rw [List.flatMap_cons, List.append_assoc, decodeReferences_singleCharacter hc]

/-- **A string in single quotes** that has no reference stands in its literal as it is, but for the
quotes and the escapes. -/
theorem decodeReferences_single {s : List Char} (hs : decodeReferences s = s) (r : List Char) :
    decodeReferences (s.flatMap singleCharacter ++ '\'' :: r)
      = s.flatMap bareCharacter ++ '\'' :: decodeReferences r := by
  induction s with
  | nil => exact decodeReferences_cons (by decide) r
  | cons c s ih =>
    obtain ⟨hrest, href⟩ := decodeReferences_cons_eq_self hs
    have hbare : (c :: s).flatMap bareCharacter ++ '\'' :: decodeReferences r
        = bareCharacter c ++ decodeReferences (s.flatMap singleCharacter ++ '\'' :: r) := by
      rw [List.flatMap_cons, List.append_assoc, ih hrest]
    rw [hbare]
    by_cases hc : c = '&'
    · subst hc
      exact decodeReferences_single_ampersand (href rfl) r
    · exact decodeReferences_single_cons hc s r

end PageBuilder.Markup
