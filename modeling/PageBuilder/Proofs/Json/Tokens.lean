/-
  The tokens of a value.

  Programs:       `tokens` — the tokens of the text of a value, in order; `texts` — the strings in a
                  value, its keys among them.
  Specification:  `foldlM_tokens` — the machine makes the spelling of the value of its tokens;
                  `apart_tokens` — a text that writes them one behind the other keeps them apart.
-/
import PageBuilder.Proofs.Json.Spelling

namespace PageBuilder.Json

namespace Token

/-- The string of a token. -/
def text? : Token → Option String
  | .string s => s
  | _ => none

/-- The text of a token that has only one. -/
def fixed? : Token → Option (List Char)
  | .openArray => some ['[']
  | .closeArray => some [']']
  | .openObject => some ['{']
  | .closeObject => some ['}']
  | .comma => some [',']
  | .colon => some [':']
  | .null => some ['n', 'u', 'l', 'l']
  | .bool true => some ['t', 'r', 'u', 'e']
  | .bool false => some ['f', 'a', 'l', 's', 'e']
  | .number _ | .string _ => none

/-- A token that ends a number. -/
def isBreak : Token → Bool
  | .comma | .closeArray | .closeObject => true
  | _ => false

theorem text?_of_fixed? {t : Token} {cs : List Char} (h : t.fixed? = some cs) : t.text? = none := by
  cases t with
  | string s => nomatch h
  | _ => rfl

end Token

mutual
/-- **The tokens** of a value; a number that has no numeral is the token `null`. -/
def tokens : Json → List Token
  | .null => [.null]
  | .bool b => [.bool b]
  | .number n =>
    match n.literal? with
    | some l => [.number l]
    | none => [.null]
  | .string s => [.string (some s)]
  | .array [] => [.openArray, .closeArray]
  | .array (x :: xs) => .openArray :: (tokens x ++ (itemTokens xs ++ [.closeArray]))
  | .object [] => [.openObject, .closeObject]
  | .object ((k, v) :: fs) =>
    .openObject :: .string (some k) :: .colon :: (tokens v ++ (fieldTokens fs ++ [.closeObject]))

/-- The items after the first, each behind a comma. -/
def itemTokens : List Json → List Token
  | [] => []
  | x :: xs => .comma :: (tokens x ++ itemTokens xs)

/-- The fields after the first, each behind a comma. -/
def fieldTokens : List (String × Json) → List Token
  | [] => []
  | (k, v) :: fs => .comma :: .string (some k) :: .colon :: (tokens v ++ fieldTokens fs)
end

mutual
/-- **The strings** in a value, in order, its keys among them. -/
def texts : Json → List String
  | .string s => [s]
  | .array xs => itemTexts xs
  | .object fs => fieldTexts fs
  | _ => []

def itemTexts : List Json → List String
  | [] => []
  | x :: xs => texts x ++ itemTexts xs

def fieldTexts : List (String × Json) → List String
  | [] => []
  | (k, v) :: fs => k :: (texts v ++ fieldTexts fs)
end

mutual
/-- The strings of a value are those of its tokens. -/
theorem filterMap_tokens : ∀ v : Json, v.tokens.filterMap Token.text? = v.texts
  | .null | .bool _ | .string _ => rfl
  | .number n => by
    rw [tokens]
    split <;> rfl
  | .array [] => rfl
  | .array (x :: xs) => by
    show (tokens x ++ (itemTokens xs ++ [Token.closeArray])).filterMap Token.text? = _
    rw [List.filterMap_append, List.filterMap_append, filterMap_tokens x, filterMap_itemTokens xs]
    exact congrArg (x.texts ++ ·) (List.append_nil _)
  | .object [] => rfl
  | .object ((k, v) :: fs) => by
    show k :: (tokens v ++ (fieldTokens fs ++ [Token.closeObject])).filterMap Token.text? = _
    rw [List.filterMap_append, List.filterMap_append, filterMap_tokens v, filterMap_fieldTokens fs]
    exact congrArg (k :: v.texts ++ ·) (List.append_nil _)

/-- The strings among the tokens of the items. -/
theorem filterMap_itemTokens : ∀ xs : List Json,
    (itemTokens xs).filterMap Token.text? = itemTexts xs
  | [] => rfl
  | x :: xs => by
    show (tokens x ++ itemTokens xs).filterMap Token.text? = _
    rw [List.filterMap_append, filterMap_tokens x, filterMap_itemTokens xs]
    rfl

/-- The strings among the tokens of the fields, keys included. -/
theorem filterMap_fieldTokens : ∀ fs : List (String × Json),
    (fieldTokens fs).filterMap Token.text? = fieldTexts fs
  | [] => rfl
  | (k, v) :: fs => by
    show k :: (tokens v ++ fieldTokens fs).filterMap Token.text? = _
    rw [List.filterMap_append, filterMap_tokens v, filterMap_fieldTokens fs]
    rfl
end

/-! ## The machine over the tokens -/

open Reading

theorem foldlM_step {s s' : Reading} {t : Token} (h : s.step? t = some s') (ts : List Token) :
    (t :: ts).foldlM step? s = ts.foldlM step? s' := by
  rw [List.foldlM_cons, h]
  rfl

mutual
/-- **Over the tokens of a value** the machine goes on as over one token. -/
theorem foldlM_tokens : ∀ (v : Json) {s : Reading} {stack : List Frame} (ts : List Token),
    s.Takes stack → (v.tokens ++ ts).foldlM step? s = ts.foldlM step? (supply v.spell stack)
  | .null, _, _, ts, hs => foldlM_step (hs rfl) ts
  | .bool _, _, _, ts, hs => foldlM_step (hs rfl) ts
  | .number n, _, _, ts, hs => by
    rw [tokens, spell]
    cases n.literal? with
    | none => exact foldlM_step (hs rfl) ts
    | some l => exact foldlM_step (hs rfl) ts
  | .string _, _, _, ts, hs => foldlM_step (hs rfl) ts
  | .array [], _, _, ts, hs => (foldlM_step (hs rfl) _).trans (foldlM_step rfl ts)
  | .array (x :: xs), s, stack, ts, hs => by
    calc ((array (x :: xs)).tokens ++ ts).foldlM step? s
        = (.openArray :: (x.tokens ++ (itemTokens xs ++ .closeArray :: ts))).foldlM step? s := by
          simp only [tokens, List.cons_append, List.append_assoc, List.nil_append]
      _ = (x.tokens ++ (itemTokens xs ++ .closeArray :: ts)).foldlM step? (firstItem stack) :=
          foldlM_step (hs rfl) _
      _ = (itemTokens xs ++ .closeArray :: ts).foldlM step? (afterItem [x.spell] stack) :=
          foldlM_tokens x _ (takes_firstItem stack)
      _ = (.closeArray :: ts).foldlM step? (afterItem ((spellItems xs).reverse ++ [x.spell]) stack) :=
          foldlM_itemTokens xs [x.spell] stack _
      _ = ts.foldlM step? (supply (.array ((spellItems xs).reverse ++ [x.spell]).reverse) stack) :=
          foldlM_step rfl ts
      _ = ts.foldlM step? (supply (spell (.array (x :: xs))) stack) := by
          -- items were collected last one first
          rw [List.reverse_append, List.reverse_reverse]
          rfl
  | .object [], _, _, ts, hs => (foldlM_step (hs rfl) _).trans (foldlM_step rfl ts)
  | .object ((k, v) :: fs), s, stack, ts, hs => by
    calc ((object ((k, v) :: fs)).tokens ++ ts).foldlM step? s
        = (.openObject :: .string (some k) :: .colon
            :: (v.tokens ++ (fieldTokens fs ++ .closeObject :: ts))).foldlM step? s := by
          simp only [tokens, List.cons_append, List.append_assoc, List.nil_append]
      _ = (v.tokens ++ (fieldTokens fs ++ .closeObject :: ts)).foldlM step?
            (value (.fields [] k :: stack)) :=
          (foldlM_step (hs rfl) _).trans ((foldlM_step rfl _).trans (foldlM_step rfl _))
      _ = (fieldTokens fs ++ .closeObject :: ts).foldlM step?
            (afterField [(some k, v.spell)] stack) :=
          foldlM_tokens v _ (takes_value _)
      _ = (.closeObject :: ts).foldlM step?
            (afterField ((spellFields fs).reverse ++ [(some k, v.spell)]) stack) :=
          foldlM_fieldTokens fs [(some k, v.spell)] stack _
      _ = ts.foldlM step?
            (supply (.object ((spellFields fs).reverse ++ [(some k, v.spell)]).reverse) stack) :=
          foldlM_step rfl ts
      _ = ts.foldlM step? (supply (spell (.object ((k, v) :: fs))) stack) := by
          rw [List.reverse_append, List.reverse_reverse]
          rfl

/-- Over the items behind the first, each behind its comma. -/
theorem foldlM_itemTokens : ∀ (xs : List Json) (done : List Source) (stack : List Frame)
    (ts : List Token), (itemTokens xs ++ ts).foldlM step? (afterItem done stack)
      = ts.foldlM step? (afterItem ((spellItems xs).reverse ++ done) stack)
  | [], _, _, _ => rfl
  | x :: xs, done, stack, ts => by
    calc (itemTokens (x :: xs) ++ ts).foldlM step? (afterItem done stack)
        = (.comma :: (x.tokens ++ (itemTokens xs ++ ts))).foldlM step? (afterItem done stack) := by
          simp only [itemTokens, List.cons_append, List.append_assoc]
      _ = (itemTokens xs ++ ts).foldlM step? (afterItem (x.spell :: done) stack) :=
          (foldlM_step rfl _).trans (foldlM_tokens x _ (takes_value _))
      _ = ts.foldlM step? (afterItem ((spellItems xs).reverse ++ x.spell :: done) stack) :=
          foldlM_itemTokens xs (x.spell :: done) stack ts
      _ = ts.foldlM step? (afterItem ((spellItems (x :: xs)).reverse ++ done) stack) := by
          rw [spellItems, List.reverse_cons, List.append_assoc]
          rfl

/-- Over the fields behind the first, each behind its comma. -/
theorem foldlM_fieldTokens : ∀ (fs : List (String × Json)) (done : List (Option String × Source))
    (stack : List Frame) (ts : List Token),
    (fieldTokens fs ++ ts).foldlM step? (afterField done stack)
      = ts.foldlM step? (afterField ((spellFields fs).reverse ++ done) stack)
  | [], _, _, _ => rfl
  | (k, v) :: fs, done, stack, ts => by
    calc (fieldTokens ((k, v) :: fs) ++ ts).foldlM step? (afterField done stack)
        = (.comma :: .string (some k) :: .colon :: (v.tokens ++ (fieldTokens fs ++ ts))).foldlM step?
            (afterField done stack) := by
          simp only [fieldTokens, List.cons_append, List.append_assoc]
      _ = (v.tokens ++ (fieldTokens fs ++ ts)).foldlM step? (value (.fields done k :: stack)) :=
          (foldlM_step rfl _).trans ((foldlM_step rfl _).trans (foldlM_step rfl _))
      _ = (fieldTokens fs ++ ts).foldlM step? (afterField ((some k, v.spell) :: done) stack) :=
          foldlM_tokens v _ (takes_value _)
      _ = ts.foldlM step? (afterField ((spellFields fs).reverse ++ (some k, v.spell) :: done) stack) :=
          foldlM_fieldTokens fs _ stack ts
      _ = ts.foldlM step? (afterField ((spellFields ((k, v) :: fs)).reverse ++ done) stack) := by
          rw [spellFields, List.reverse_cons, List.append_assoc]
          rfl
end

/-! ## Tokens that a text keeps apart -/

/-- **Tokens that a text keeps apart**: what stands behind a number ends it. -/
inductive Apart : List Token → Prop where
  | nil : Apart []
  | fixed {t : Token} {cs : List Char} {ts : List Token} (text : t.fixed? = some cs)
      (rest : Apart ts) : Apart (t :: ts)
  | string (s : String) {ts : List Token} (rest : Apart ts) : Apart (.string (some s) :: ts)
  | number {l : Literal} {ts : List Token} (grammatical : l.Grammatical)
      (ends : ∀ t ∈ ts.head?, t.isBreak = true) (rest : Apart ts) : Apart (.number l :: ts)

theorem isBreak_head?_cons {t : Token} (h : t.isBreak = true) (ts : List Token) :
    ∀ u ∈ (t :: ts).head?, u.isBreak = true := by
  rintro _ ⟨⟩
  exact h

theorem isBreak_head?_itemTokens (xs : List Json) {ts : List Token}
    (h : ∀ t ∈ ts.head?, t.isBreak = true) : ∀ t ∈ (itemTokens xs ++ ts).head?, t.isBreak = true := by
  cases xs with
  | nil => exact h
  | cons x xs => exact isBreak_head?_cons rfl _

theorem isBreak_head?_fieldTokens (fs : List (String × Json)) {ts : List Token}
    (h : ∀ t ∈ ts.head?, t.isBreak = true) :
    ∀ t ∈ (fieldTokens fs ++ ts).head?, t.isBreak = true := by
  cases fs with
  | nil => exact h
  | cons e fs => exact isBreak_head?_cons rfl _

mutual
/-- **The tokens of a value** are kept apart, in front of what ends a number. -/
theorem apart_tokens : ∀ (v : Json) {ts : List Token}, (∀ t ∈ ts.head?, t.isBreak = true) →
    Apart ts → Apart (v.tokens ++ ts)
  | .null, _, _, hts => .fixed rfl hts
  | .bool true, _, _, hts => .fixed rfl hts
  | .bool false, _, _, hts => .fixed rfl hts
  | .number n, ts, hhead, hts => by
    rw [tokens]
    -- a number without a numeral is the word null
    cases hl : n.literal? with
    | none => exact .fixed rfl hts
    | some l => exact .number (Number.grammatical_literal? hl) hhead hts
  | .string s, _, _, hts => .string s hts
  | .array [], _, _, hts => .fixed rfl (.fixed rfl hts)
  | .array (x :: xs), ts, _, hts => by
    -- every item has the next comma behind it, or the closing bracket
    have hclose : ∀ t ∈ (Token.closeArray :: ts).head?, t.isBreak = true := isBreak_head?_cons rfl ts
    have hitems : Apart (itemTokens xs ++ .closeArray :: ts) :=
      apart_itemTokens xs hclose (.fixed rfl hts)
    have hfirst := apart_tokens x (isBreak_head?_itemTokens xs hclose) hitems
    simp only [tokens, List.cons_append, List.append_assoc, List.nil_append]
    exact .fixed rfl hfirst
  | .object [], _, _, hts => .fixed rfl (.fixed rfl hts)
  | .object ((k, v) :: fs), ts, _, hts => by
    have hclose : ∀ t ∈ (Token.closeObject :: ts).head?, t.isBreak = true :=
      isBreak_head?_cons rfl ts
    have hfields : Apart (fieldTokens fs ++ .closeObject :: ts) :=
      apart_fieldTokens fs hclose (.fixed rfl hts)
    have hfirst := apart_tokens v (isBreak_head?_fieldTokens fs hclose) hfields
    simp only [tokens, List.cons_append, List.append_assoc, List.nil_append]
    exact .fixed rfl (.string k (.fixed rfl hfirst))

/-- The tokens of further items are kept apart. -/
theorem apart_itemTokens : ∀ (xs : List Json) {ts : List Token},
    (∀ t ∈ ts.head?, t.isBreak = true) → Apart ts → Apart (itemTokens xs ++ ts)
  | [], _, _, hts => hts
  | x :: xs, ts, hhead, hts => by
    have hitems := apart_itemTokens xs hhead hts
    have hfirst := apart_tokens x (isBreak_head?_itemTokens xs hhead) hitems
    rw [itemTokens, List.cons_append, List.append_assoc]
    exact .fixed rfl hfirst

theorem apart_fieldTokens : ∀ (fs : List (String × Json)) {ts : List Token},
    (∀ t ∈ ts.head?, t.isBreak = true) → Apart ts → Apart (fieldTokens fs ++ ts)
  | [], _, _, hts => hts
  | (k, v) :: fs, ts, hhead, hts => by
    have hfields := apart_fieldTokens fs hhead hts
    have hfirst := apart_tokens v (isBreak_head?_fieldTokens fs hhead) hfields
    rw [fieldTokens, List.cons_append, List.cons_append, List.cons_append, List.append_assoc]
    exact .fixed rfl (.string k (.fixed rfl hfirst))
end

/-! ## The text behind a token -/

/-- Scanning an exponent leaves an end of the text. -/
theorem suffix_of_scanExponent? {cs r : List Char} {e : Int}
    (h : scanExponent? cs = some (e, r)) : r <:+ cs := by
  have hsign : (Binary64.takeSign cs).2 <:+ cs := by
    unfold Binary64.takeSign
    split
    · exact List.suffix_cons _ _
    · exact List.suffix_cons _ _
    · exact List.suffix_rfl
  unfold scanExponent? at h
  dsimp only at h
  split at h
  · nomatch h
  · obtain ⟨-, rfl⟩ := Prod.mk.inj (Option.some.inj h)
    exact (List.dropWhile_suffix _).trans hsign

theorem suffix_of_scanTail? {n m : Literal} {cs r : List Char}
    (h : scanTail? n cs = some (m, r)) : r <:+ cs := by
  unfold scanTail? at h
  split at h
  · split at h
    · obtain ⟨p, hp, heq⟩ := Option.map_eq_some_iff.1 h
      obtain ⟨-, rfl⟩ := Prod.mk.inj heq
      exact (suffix_of_scanExponent? hp).trans (List.suffix_cons _ _)
    · obtain ⟨-, rfl⟩ := Prod.mk.inj (Option.some.inj h)
      exact List.suffix_rfl
  · obtain ⟨-, rfl⟩ := Prod.mk.inj (Option.some.inj h)
    exact List.suffix_rfl

theorem suffix_of_scanUnsigned? {negative : Bool} {n : Literal} {cs r : List Char}
    (h : scanUnsigned? negative cs = some (n, r)) : r <:+ cs := by
  have hdigits : cs.dropWhile Char.isDigit <:+ cs := List.dropWhile_suffix _
  unfold scanUnsigned? at h
  dsimp only at h
  split at h
  · nomatch h
  · split at h
    · next hpoint =>
      rw [hpoint] at hdigits
      split at h
      · nomatch h
      · exact (suffix_of_scanTail? h).trans
          ((List.dropWhile_suffix _).trans ((List.suffix_cons _ _).trans hdigits))
    · exact (suffix_of_scanTail? h).trans hdigits

/-- **A token that starts with no quote** has no string, and the text goes on behind it. -/
theorem rest_of_scan? {cs r : List Char} {t : Token} (hquote : cs.head? ≠ some '"')
    (h : scan? cs = some (t, r)) : t.text? = none ∧ r <:+ cs := by
  have hnumber : ∀ {negative : Bool} {ds : List Char}, (scanUnsigned? negative ds).map
      (fun p => (Token.number p.1, p.2)) = some (t, r) → t.text? = none ∧ r <:+ ds := by
    intro negative ds h
    obtain ⟨p, hp, heq⟩ := Option.map_eq_some_iff.1 h
    obtain ⟨rfl, rfl⟩ := Prod.mk.inj heq
    exact ⟨rfl, suffix_of_scanUnsigned? hp⟩
  unfold scan? at h
  -- a string is excluded; a word takes its letters, a number its sign and digits, a bracket itself
  split at h
  case h_7 => exact absurd rfl hquote
  case h_8 | h_9 =>
    obtain ⟨rfl, rfl⟩ := Prod.mk.inj (Option.some.inj h)
    exact ⟨rfl, [_, _, _, _], rfl⟩
  case h_10 =>
    obtain ⟨rfl, rfl⟩ := Prod.mk.inj (Option.some.inj h)
    exact ⟨rfl, [_, _, _, _, _], rfl⟩
  case h_11 =>
    obtain ⟨htext, hrest⟩ := hnumber h
    exact ⟨htext, hrest.trans (List.suffix_cons _ _)⟩
  case h_12 => exact hnumber h
  all_goals
    obtain ⟨rfl, rfl⟩ := Prod.mk.inj (Option.some.inj h)
    exact ⟨rfl, [_], rfl⟩

end PageBuilder.Json
