/-
  Literals inside double-quoted attributes.

  A page decodes the references in an attribute before a script reads the literal in it.

  Program:        `tokenText` — a token as a literal has it.
  Specification:  `value?_literal_single_iff` — a literal in single quotes has no double quote, and the
                  script reads the value it was written for if and only if no string in the value has
                  a reference.
  Crux:           `tokens?_decodeReferences` — without references the tokens come back one by one; and
                  `signs_decodeReferences` — a reference loses a sign, so that too few signs are left
                  to be read as the strings that were written.
-/
import PageBuilder.Proofs.Json.Faithful
import PageBuilder.Proofs.Json.Tokens
import PageBuilder.Proofs.Markup.Signs

namespace PageBuilder.Markup

open Json (Token Apart)

/-! ## Literals as tokens -/

/-- A token as a literal has it. -/
def tokenText (q : Quote) : Token → List Char
  | .number l => l.write
  | .string s => stringLiteral q (s.getD "").toList
  | t => t.fixed?.getD []

/-- A token that has only one text is written so with either quote. -/
theorem tokenText_of_fixed? {t : Token} {cs : List Char} (h : t.fixed? = some cs) (q : Quote) :
    tokenText q t = cs := by
  cases t with
  | number l => nomatch h
  | string s => nomatch h
  | _ => exact congrArg (Option.getD · []) h

mutual
/-- **A literal** is its tokens, one behind the other. -/
theorem literal_eq (q : Quote) : ∀ v : Json, (∀ n ∈ v.numbers, ∃ i, n = .whole i) →
    literal q v = v.tokens.flatMap (tokenText q)
  | .null, _ | .bool true, _ | .bool false, _ => rfl
  | .number n, h => by
    obtain ⟨i, rfl⟩ := h n List.mem_cons_self
    have htext := Json.Number.text?_eq (.whole i)
    show ((Json.Number.whole i).text?).getD ['0'] = (Json.Literal.ofInt i).write ++ []
    rw [htext, List.append_nil]
    rfl
  | .string s, _ => (List.append_nil _).symm
  | .array [], _ => rfl
  | .array (x :: xs), h => by
    -- the numbers of a list are those of its head and of its tail
    obtain ⟨hx, hxs⟩ := List.forall_mem_append.1 h
    rw [literal, literal_eq q x hx, literalItems_eq q xs hxs]
    simp only [Json.tokens, List.flatMap_cons, List.flatMap_append, List.flatMap_nil,
      List.append_nil, List.append_assoc]
    rfl
  | .object [], _ => rfl
  | .object ((k, v) :: fs), h => by
    obtain ⟨hv, hfs⟩ := List.forall_mem_append.1 h
    rw [literal, literal_eq q v hv, literalFields_eq q fs hfs]
    simp only [Json.tokens, List.flatMap_cons, List.flatMap_append, List.flatMap_nil,
      List.append_nil, List.append_assoc]
    rfl

/-- The items after the first are written as their tokens. -/
theorem literalItems_eq (q : Quote) : ∀ xs : List Json,
    (∀ n ∈ Json.itemNumbers xs, ∃ i, n = .whole i) →
    literalItems q xs = (Json.itemTokens xs).flatMap (tokenText q)
  | [], _ => rfl
  | x :: xs, h => by
    obtain ⟨hx, hxs⟩ := List.forall_mem_append.1 h
    rw [literalItems, literal_eq q x hx, literalItems_eq q xs hxs]
    simp only [Json.itemTokens, List.flatMap_cons, List.flatMap_append]
    rfl

theorem literalFields_eq (q : Quote) : ∀ fs : List (String × Json),
    (∀ n ∈ Json.fieldNumbers fs, ∃ i, n = .whole i) →
    literalFields q fs = (Json.fieldTokens fs).flatMap (tokenText q)
  | [], _ => rfl
  | (k, v) :: fs, h => by
    obtain ⟨hv, hfs⟩ := List.forall_mem_append.1 h
    rw [literalFields, literal_eq q v hv, literalFields_eq q fs hfs]
    simp only [Json.fieldTokens, List.flatMap_cons, List.flatMap_append]
    rfl
end

/-! ## What a literal has -/

/-- The text of a number is digits, signs, points and marks of exponents. -/
theorem mem_write {l : Json.Literal} (hl : l.Grammatical) :
    ∀ c ∈ l.write, c.isDigit = true ∨ c ∈ ['-', '+', '.', 'e'] := by
  -- from the end of the numeral to its front: exponent, fraction, whole part, sign
  have hexponent : ∀ e, ∀ c ∈ Json.Literal.writeExponent e,
      c.isDigit = true ∨ c ∈ ['-', '+', '.', 'e'] := by
    intro e c hc
    cases e with
    | none => nomatch hc
    | some e =>
      rcases List.mem_cons.1 hc with rfl | hc
      · exact .inr (by decide)
      rcases List.mem_cons.1 hc with rfl | hc
      · exact .inr (by split <;> decide)
      · exact .inl (Json.isDigit_of_mem_decimalDigits c hc)
  have htail : ∀ c ∈ l.writeTail, c.isDigit = true ∨ c ∈ ['-', '+', '.', 'e'] := by
    intro c hc
    unfold Json.Literal.writeTail at hc
    split at hc
    · exact hexponent _ c hc
    · next ds hds =>
      rcases List.mem_cons.1 hc with rfl | hc
      · exact .inr (by decide)
      rcases List.mem_append.1 hc with hc | hc
      · exact .inl ((hl.fraction ds hds).2 c hc)
      · exact hexponent _ c hc
  have hunsigned : ∀ c ∈ l.unsigned, c.isDigit = true ∨ c ∈ ['-', '+', '.', 'e'] := by
    intro c hc
    rcases List.mem_append.1 hc with hc | hc
    · exact .inl (hl.whole.2 c hc)
    · exact htail c hc
  intro c hc
  rw [Json.Literal.write_eq] at hc
  split at hc
  · rcases List.mem_cons.1 hc with rfl | hc
    · exact .inr (by decide)
    · exact hunsigned c hc
  · exact hunsigned c hc

/-- No other character stands in a number. -/
theorem notMem_write {l : Json.Literal} (hl : l.Grammatical) {c : Char} (hdigit : c.isDigit = false)
    (hmark : c ∉ ['-', '+', '.', 'e']) : c ∉ l.write := by
  intro hc
  rcases mem_write hl c hc with h | h
  · rw [hdigit] at h
    nomatch h
  · exact hmark h

/-- A token that has only one text has neither an ampersand nor a double quote. -/
theorem notMem_of_fixed? {t : Token} {cs : List Char} (h : t.fixed? = some cs) :
    '&' ∉ cs ∧ '"' ∉ cs := by
  cases t with
  | number l => nomatch h
  | string s => nomatch h
  | bool b => cases b <;> obtain rfl := Option.some.inj h <;> decide
  | _ => obtain rfl := Option.some.inj h; decide

/-- No character is written with a double quote. -/
theorem notMem_singleCharacter (c : Char) : '"' ∉ singleCharacter c := by
  rcases singleCharacter_cases c with ⟨-, hs, -⟩ | ⟨e, he, hs, -⟩ | ⟨hc, -, hs, -⟩
  · rw [hs]
    decide
  · have hne : e ≠ '"' := (by decide : ∀ p ∈ escapes, p.1 ≠ '"') _ he
    rw [hs]
    simp [Ne.symm hne]
  · rw [hs]
    simp [Ne.symm hc]

theorem notMem_single (s : List Char) : '"' ∉ stringLiteral .single s := by
  intro hmem
  rcases List.mem_cons.1 hmem with heq | hmem
  · nomatch heq
  rcases List.mem_append.1 hmem with hmem | hmem
  · obtain ⟨c, -, hc⟩ := List.mem_flatMap.1 hmem
    exact notMem_singleCharacter c hc
  · nomatch List.mem_singleton.1 hmem

/-- **No quote is left**, whatever the tokens are. -/
theorem notMem_flatMap_tokenText {ts : List Token} (h : Apart ts) :
    '"' ∉ ts.flatMap (tokenText .single) := by
  induction h with
  | nil => exact List.not_mem_nil
  | fixed htext _ ih =>
    rw [List.flatMap_cons, tokenText_of_fixed? htext, List.mem_append, not_or]
    exact ⟨(notMem_of_fixed? htext).2, ih⟩
  | string s _ ih =>
    rw [List.flatMap_cons, List.mem_append, not_or]
    exact ⟨notMem_single s.toList, ih⟩
  | number hl _ _ ih =>
    rw [List.flatMap_cons, List.mem_append, not_or]
    exact ⟨notMem_write hl rfl (by decide), ih⟩

/-! ## The tokens of a literal -/

theorem decodeReferences_fixed {t : Token} {cs : List Char} (h : t.fixed? = some cs)
    (r : List Char) : decodeReferences (cs ++ r) = cs ++ decodeReferences r :=
  decodeReferences_append (notMem_of_fixed? h).1 r

theorem decodeReferences_number {l : Json.Literal} (hl : l.Grammatical) (r : List Char) :
    decodeReferences (l.write ++ r) = l.write ++ decodeReferences r :=
  decodeReferences_append (notMem_write hl rfl (by decide)) r

theorem decodeReferences_string (s : String) (r : List Char) :
    decodeReferences (tokenText .single (.string (some s)) ++ r)
      = '\'' :: decodeReferences (s.toList.flatMap singleCharacter ++ '\'' :: r) := by
  show decodeReferences ('\'' :: (s.toList.flatMap singleCharacter ++ ['\''] ++ r)) = _
  rw [List.append_assoc, decodeReferences_cons (by decide), List.singleton_append]

/-- What ends a number is one character that is no part of it. -/
theorem exists_of_isBreak {t : Token} (h : t.isBreak = true) :
    ∃ c, t.fixed? = some [c] ∧ Json.Delimits c := by
  cases t with
  | comma => exact ⟨',', rfl, by decide⟩
  | closeArray => exact ⟨']', rfl, by decide⟩
  | closeObject => exact ⟨'}', rfl, by decide⟩
  | _ => nomatch h

/-- A number ends in front of the next token after decoding as before. -/
theorem ends_decodeReferences {ts : List Token} (h : ∀ t ∈ ts.head?, t.isBreak = true) :
    Json.Ends (decodeReferences (ts.flatMap (tokenText .single))) := by
  cases ts with
  | nil => exact decodeReferences_nil ▸ nofun
  | cons t ts =>
    obtain ⟨c, htext, hc⟩ := exists_of_isBreak (h t rfl)
    rw [List.flatMap_cons, tokenText_of_fixed? htext, decodeReferences_fixed htext]
    exact Json.ends_cons hc _

/-- **The tokens of a literal** whose strings have no references are read as they were written. -/
theorem tokens?_decodeReferences {ts : List Token} (h : Apart ts)
    (hplain : ∀ s ∈ ts.filterMap Token.text?, decodeReferences s.toList = s.toList) :
    Script.tokens? (decodeReferences (ts.flatMap (tokenText .single))) = some ts := by
  induction h with
  | nil => rw [List.flatMap_nil, decodeReferences_nil, Script.tokens?_nil]
  | @fixed t cs ts htext _ ih =>
    rw [List.filterMap_cons_none (Token.text?_of_fixed? htext)] at hplain
    rw [List.flatMap_cons, tokenText_of_fixed? htext, decodeReferences_fixed htext,
      Script.tokens?_token (Script.scan?_fixed htext _), ih hplain, Option.map_some]
  | @string s ts _ ih =>
    -- only a string can change under decoding, and these are assumed not to
    obtain ⟨hs, hrest⟩ := List.forall_mem_cons.1 hplain
    rw [List.flatMap_cons, decodeReferences_string, decodeReferences_single hs,
      Script.tokens?_token (Script.scan?_single s _), ih hrest, Option.map_some]
  | @number l ts hl hends _ ih =>
    rw [List.flatMap_cons, tokenText, decodeReferences_number hl,
      Script.tokens?_token (Script.scan?_number hl (ends_decodeReferences hends)), ih hplain,
      Option.map_some]

/-! ## The signs of a literal -/

/-- One for a string that decoding changes. -/
def spoiled (s : List Char) : Nat := if decodeReferences s = s then 0 else 1

theorem spoiled_le (s : List Char) : spoiled s ≤ 1 := by
  unfold spoiled
  split <;> decide

theorem spoiled_cons {c : Char} {s : List Char}
    (h : decodeReferences (c :: s) = c :: decodeReferences s) : spoiled (c :: s) = spoiled s := by
  simp only [spoiled, h, List.cons.injEq, true_and]

/-- A number has no signs. -/
theorem stringSigns_write {l : Json.Literal} (hl : l.Grammatical) : stringSigns l.write = 0 := by
  refine List.sum_eq_zero_iff_forall_eq_nat.2 fun n hn => ?_
  obtain ⟨c, hc, rfl⟩ := List.mem_map.1 hn
  rcases mem_write hl c hc with hdigit | hmark
  · exact sign_of_isDigit hdigit
  · simp only [List.mem_cons, List.not_mem_nil, or_false] at hmark
    rcases hmark with rfl | rfl | rfl | rfl <;> rfl

/-- A token that has only one text has none either. -/
theorem stringSigns_of_fixed? {t : Token} {cs : List Char} (h : t.fixed? = some cs) :
    stringSigns cs = 0 := by
  cases t with
  | number l => nomatch h
  | string s => nomatch h
  | bool b => cases b <;> obtain rfl := Option.some.inj h <;> rfl
  | _ => obtain rfl := Option.some.inj h; rfl

/-- A character takes the signs that it stands for. -/
theorem signs_bareCharacter (c : Char) (r : List Char) :
    signs (bareCharacter c ++ r) = sign c + signs r := by
  rcases singleCharacter_cases c with ⟨rfl, -, hb⟩ | ⟨e, he, -, hb⟩ | ⟨-, hc, -, hb⟩
  · rw [hb]
    exact signs_cons (by decide) r
  · have hsign : sign c = 1 := (by decide : ∀ p ∈ escapes, sign p.2 = 1) _ he
    rw [hb, hsign]
    exact signs_escape e r
  · have hslash : c ≠ '\\' := fun heq => hc (heq ▸ by decide)
    rw [hb]
    exact signs_cons hslash r

/-- A reference by name has at least the signs of its character. -/
theorem sign_le_of_namedCharacter? {name : List Char} {c : Char}
    (h : namedCharacter? name = some c) : sign c ≤ stringSigns name := by
  unfold namedCharacter? at h
  split at h
  · obtain rfl := Option.some.inj h
    decide
  · obtain rfl := Option.some.inj h
    decide
  · obtain rfl := Option.some.inj h
    decide
  · obtain rfl := Option.some.inj h
    decide
  · nomatch h

/-- **A reference has more signs** than its character. -/
theorem stringSigns_of_reference? {s t : List Char} {d : Char} (h : reference? s = some (d, t)) :
    1 + sign d + stringSigns t ≤ stringSigns ('&' :: s) := by
  have hampersand : sign '&' = 1 := rfl
  rcases reference?_cases h with ⟨name, u, hname, rfl⟩ | ⟨u, rfl⟩
  · have hsign := sign_le_of_namedCharacter? hname
    rw [stringSigns_cons, stringSigns_append, stringSigns_append, hampersand]
    omega
  · have hhash : sign '#' = 1 := rfl
    have hsign := sign_le d
    rw [stringSigns_cons, stringSigns_cons, stringSigns_append, hampersand, hhash]
    omega

/-- **A string in single quotes** has, once references are decoded, no more signs than it takes to
write it, and fewer if there were any references. -/
theorem signs_single (s r : List Char) :
    signs (decodeReferences (s.flatMap singleCharacter ++ '\'' :: r)) + spoiled s
      ≤ stringSigns s + 1 + signs (decodeReferences r) := by
  induction s using decodeReferences.induct with
  | case1 =>
    have hspoiled : spoiled [] = 0 := if_pos decodeReferences_nil
    rw [hspoiled, List.flatMap_nil, List.nil_append, decodeReferences_cons (by decide),
      signs_cons (by decide)]
    exact Nat.le_refl _
  | case2 s d t href ih =>
    -- the reference goes, and its character comes, which has fewer signs
    have hsigns := (signs_cons_bounds d
      (decodeReferences (t.flatMap singleCharacter ++ '\'' :: r))).2
    have hstring := stringSigns_of_reference? href
    have hspoiled := spoiled_le ('&' :: s)
    rw [decodeReferences_single_reference href]
    omega
  | case3 s href ih =>
    rw [decodeReferences_single_ampersand href, signs_cons (by decide), stringSigns_cons,
      spoiled_cons (decodeReferences_ampersand href)]
    omega
  | case4 c s hc ih =>
    rw [decodeReferences_single_cons hc, signs_bareCharacter, stringSigns_cons,
      spoiled_cons (decodeReferences_cons hc s)]
    omega

/-- **The tokens of a literal** have, once references are decoded, no more signs than it takes to write
their strings, and one less for every string that had references. -/
theorem signs_decodeReferences {ts : List Token} (h : Apart ts) :
    signs (decodeReferences (ts.flatMap (tokenText .single)))
      + (ts.map (Token.weight fun s => spoiled s.toList)).sum
      ≤ (ts.map (Token.weight writtenSigns)).sum := by
  induction h with
  | nil => exact decodeReferences_nil ▸ Nat.le_refl _
  | @fixed t cs ts htext _ ih =>
    have hweight : ∀ w, t.weight w = 0 := fun w => by
      rw [Token.weight, Token.text?_of_fixed? htext]
      rfl
    rw [List.flatMap_cons, tokenText_of_fixed? htext, decodeReferences_fixed htext,
      signs_append (stringSigns_of_fixed? htext), List.map_cons, List.sum_cons, List.map_cons,
      List.sum_cons, hweight, hweight, Nat.zero_add, Nat.zero_add]
    exact ih
  | @string s ts _ ih =>
    -- a string that decoding changes has lost a sign
    have hstring := signs_single s.toList (ts.flatMap (tokenText .single))
    have hsign : sign '\'' = 1 := rfl
    rw [List.flatMap_cons, decodeReferences_string, signs_cons (by decide), hsign, List.map_cons,
      List.sum_cons, List.map_cons, List.sum_cons]
    show _ + (spoiled s.toList + _) ≤ 2 + stringSigns s.toList + _
    omega
  | @number l ts hl hends _ ih =>
    have hweight : ∀ w, (Token.number l).weight w = 0 := fun _ => rfl
    rw [List.flatMap_cons, tokenText, decodeReferences_number hl,
      signs_append (stringSigns_write hl), List.map_cons, List.sum_cons, List.map_cons,
      List.sum_cons, hweight, hweight, Nat.zero_add, Nat.zero_add]
    exact ih

/-! ## The literal of a value -/

/-- A whole number within the words. -/
def isIntegral : Json.Number → Bool
  | .whole i => Json.Number.inRange i
  | .binary _ => false

/-- **A value without fractions**: its numbers are whole, and no object in it has a key twice. -/
structure Integral (v : Json) : Prop where
  tidy : v.isTidy = true
  numbers : ∀ n ∈ v.numbers, isIntegral n = true

/-- The numbers of such a value are whole. -/
theorem Integral.whole {v : Json} (h : Integral v) : ∀ n ∈ v.numbers, ∃ i, n = .whole i := by
  intro n hn
  have hintegral := h.numbers n hn
  cases n with
  | whole i => exact ⟨i, rfl⟩
  | binary x => nomatch hintegral

/-- Such a value is faithful. -/
theorem Integral.faithful {v : Json} (h : Integral v) : v.Faithful := by
  refine ⟨h.tidy, fun n hn => ?_⟩
  have hintegral := h.numbers n hn
  cases n with
  | whole i => exact Json.Number.survives_whole hintegral
  | binary x => nomatch hintegral

theorem apart_tokens_nil (v : Json) : Apart v.tokens := by
  have hapart : Apart (v.tokens ++ []) := Json.apart_tokens v nofun .nil
  rwa [List.append_nil] at hapart

/-- **A literal without references** is read as the spelling of its value. -/
theorem source?_decodeReferences {v : Json} (hnumbers : ∀ n ∈ v.numbers, ∃ i, n = .whole i)
    (hplain : ∀ s ∈ v.texts, decodeReferences s.toList = s.toList) :
    (Script.tokens? (decodeReferences (literal .single v))).bind Script.source? = some v.spell := by
  have hmachine := Json.foldlM_tokens v [] (Json.Reading.takes_value [])
  rw [List.append_nil] at hmachine
  rw [← Json.filterMap_tokens] at hplain
  rw [literal_eq .single v hnumbers, tokens?_decodeReferences (apart_tokens_nil v) hplain,
    Option.bind_some, Script.source?, hmachine]
  rfl

/-- **A literal that is read as its value** has no references: each would have cost a sign. -/
theorem plain_of_value? {v : Json} (hnumbers : ∀ n ∈ v.numbers, ∃ i, n = .whole i) {room : Nat}
    (h : Script.value? room (decodeReferences (literal .single v)) = some v) :
    ∀ s ∈ v.texts, decodeReferences s.toList = s.toList := by
  have hread := Script.signs_le_of_value? h
  have hwritten := signs_decodeReferences (apart_tokens_nil v)
  rw [literal_eq .single v hnumbers, Json.weight_eq] at hread
  rw [← Json.weight_eq fun s => spoiled s.toList] at hwritten
  have hnone : Json.weight (fun s => spoiled s.toList) v = 0 := by omega
  intro s hs
  have hspoiled : spoiled s.toList = 0 :=
    List.sum_eq_zero_iff_forall_eq_nat.1 hnone _ (List.mem_map_of_mem hs)
  by_contra hchanged
  rw [spoiled, if_neg hchanged] at hspoiled
  nomatch hspoiled

/-- **A literal in single quotes** fits between double quotes, and once references are decoded it is
read as its value if and only if decoding leaves every string in the value alone. -/
theorem value?_literal_single_iff {v : Json} (hv : Integral v) {room : Nat}
    (hdepth : v.depth ≤ room) :
    '"' ∉ literal .single v ∧
    (Script.value? room (decodeReferences (literal .single v)) = some v ↔
      ∀ s ∈ v.texts, decodeReferences s.toList = s.toList) := by
  refine ⟨?_, plain_of_value? hv.whole, fun hplain => ?_⟩
  · rw [literal_eq .single v hv.whole]
    exact notMem_flatMap_tokenText (apart_tokens_nil v)
  · rw [Script.value?, source?_decodeReferences hv.whole hplain, Option.bind_some,
      Json.value?_spell v room hv.faithful, if_pos hdepth]

/-- A list item with quotes of both kinds, a backslash and an ampersand. -/
def quotingItem : Json :=
  .object [("title", .string "\"it's\" \\ & #39;"), ("rank", .number (.whole (-7))),
    ("it's", .array [])]

/-- An item with everything in it that has to be escaped. -/
theorem value?_literal_single_quotingItem :
    Integral quotingItem ∧ quotingItem.depth ≤ 2 ∧ '"' ∉ literal .single quotingItem ∧
    Script.value? 2 (decodeReferences (literal .single quotingItem)) = some quotingItem := by
  have hv : Integral quotingItem := ⟨by decide, by decide⟩
  have hdepth : quotingItem.depth ≤ 2 := by decide
  have hplain : ∀ s ∈ quotingItem.texts, decodeReferences s.toList = s.toList := by decide +kernel
  obtain ⟨hquote, hread⟩ := value?_literal_single_iff hv hdepth
  exact ⟨hv, hdepth, hquote, hread.2 hplain⟩

/-- One choice, with references to a quote in it. -/
def quotedChoice : Json := .array [.string "&#39;,&#39;"]

/-- **References are not escaped**: the choice is read as two, both empty. -/
theorem not_value?_literal_single_quotedChoice :
    Integral quotedChoice ∧ quotedChoice.depth ≤ 1 ∧
    Script.value? 1 (decodeReferences (literal .single quotedChoice))
      = some (.array [.string "", .string ""]) ∧
    Script.value? 1 (decodeReferences (literal .single quotedChoice)) ≠ some quotedChoice := by
  refine ⟨⟨by decide, by decide⟩, by decide, ?_, ?_⟩
  · decide +kernel
  · decide +kernel

end PageBuilder.Markup
