/-
  The printer and the reader of text agree.

  Program:        `spell` — how the text of a value is spelled.
  Specification:  `ofText?_write` — the text of any value, in any style, is read as that spelling.
  Crux:           `run?_write` — over the text of a value the machine goes on as over one token,
                  whatever brackets are open; so the induction is on the value alone, and nesting
                  has no part in it.
-/
import PageBuilder.Proofs.Json.Numeral

namespace PageBuilder.Json

mutual
/-- **The spelling** of a value; a number that has no numeral is spelled `null`. -/
def spell : Json → Source
  | .null => .null
  | .bool b => .bool b
  | .number n =>
    match n.literal? with
    | some l => .number l
    | none => .null
  | .string s => .string (some s)
  | .array xs => .array (spellItems xs)
  | .object fs => .object (spellFields fs)

def spellItems : List Json → List Source
  | [] => []
  | x :: xs => spell x :: spellItems xs

def spellFields : List (String × Json) → List (Option String × Source)
  | [] => []
  | (k, v) :: fs => (some k, spell v) :: spellFields fs
end

/-! ## Steps of the machine -/

namespace Reading

variable {s : Reading} {cs ws r : List Char}

/-- White space starts no token. -/
theorem isSpace_eq_false_of_scan? {c : Char} {p : Token × List Char}
    (h : scan? (c :: r) = some p) : isSpace c = false := by
  rw [Bool.eq_false_iff]
  intro hc
  have hspace : c = ' ' ∨ c = '\n' ∨ c = '\r' ∨ c = '\t' := by
    simpa [isSpace, or_assoc] using hc
  rcases hspace with rfl | rfl | rfl | rfl <;> nomatch h

/-- The machine, from one token to the next. -/
theorem run?_eq (s : Reading) (cs : List Char) : s.run? cs =
    match cs.dropWhile isSpace with
    | [] =>
      match s with
      | .finished v => some v
      | _ => none
    | c :: r =>
      (scan? (c :: r)).bind fun t => (s.step? t.1).bind fun s' => s'.run? t.2 := by
  rw [run?.eq_def]
  -- the end of the text, or a token that is scanned and taken
  split
  · next h => cases s <;> rw [h]
  · next c r h =>
    rw [h]
    dsimp only
    split
    · next hscan => rw [hscan, Option.bind_none]
    · next t rest hscan =>
      rw [hscan, Option.bind_some]
      split
      · next hstep => rw [hstep, Option.bind_none]
      · next s' hstep => rw [hstep, Option.bind_some]

theorem run?_blank (hws : ∀ c ∈ ws, isSpace c = true) : s.run? (ws ++ cs) = s.run? cs := by
  rw [run?_eq, run?_eq s cs, List.dropWhile_append_of_pos hws]

/-- A token, and the step it stands for. -/
theorem run?_token {t : Token} {s' : Reading} (hscan : scan? cs = some (t, r))
    (hstep : s.step? t = some s') : s.run? cs = s'.run? r := by
  cases cs with
  | nil => nomatch hscan
  | cons c cs =>
    have hdrop : (c :: cs).dropWhile isSpace = c :: cs := by
      rw [List.dropWhile_cons_of_neg]
      rw [isSpace_eq_false_of_scan? hscan]
      exact Bool.false_ne_true
    rw [run?_eq, hdrop]
    dsimp only
    rw [hscan, Option.bind_some, hstep, Option.bind_some]

/-- A machine that takes a value, and hands it to the open brackets. -/
def Takes (s : Reading) (stack : List Frame) : Prop :=
  ∀ {t : Token} {s' : Reading}, startValue? stack t = some s' → s.step? t = some s'

theorem takes_value (stack : List Frame) : (value stack).Takes stack := fun h => h

/-- Behind an opening bracket the first item is taken. -/
theorem takes_firstItem (stack : List Frame) : (firstItem stack).Takes (.items [] :: stack) := by
  intro t s' h
  cases t with
  | closeArray => nomatch h
  | _ => exact h

end Reading

/-! ## Texts of values -/

/-- A style that puts nothing but white space between tokens. -/
structure Style.Blank (s : Style) : Prop where
  lineBreak : ∀ level, ∀ c ∈ s.lineBreak level, isSpace c = true
  afterColon : ∀ c ∈ s.afterColon, isSpace c = true

theorem Style.blank_compact : Style.compact.Blank := ⟨fun _ => nofun, nofun⟩

/-- The pretty style puts line breaks and spaces. -/
theorem Style.blank_pretty : Style.pretty.Blank := by
  refine ⟨fun level => ?_, List.forall_mem_singleton.2 rfl⟩
  show ∀ c ∈ '\n' :: List.replicate (2 * level) ' ', isSpace c = true
  rw [List.forall_mem_cons]
  refine ⟨rfl, fun c hc => ?_⟩
  rw [(List.mem_replicate.1 hc).2]
  rfl

theorem delimits_of_isSpace {c : Char} (h : isSpace c = true) : Delimits c := by
  have hspace : c = ' ' ∨ c = '\n' ∨ c = '\r' ∨ c = '\t' := by
    simpa [isSpace, or_assoc] using h
  rcases hspace with rfl | rfl | rfl | rfl <;> decide

/-- A text that starts with a character that is no part of a number, white space aside. -/
theorem ends_blank {ws r : List Char} (hws : ∀ c ∈ ws, isSpace c = true) (hr : Ends r) :
    Ends (ws ++ r) := by
  cases ws with
  | nil => exact hr
  | cons c ws =>
    intro d hd
    obtain rfl : c = d := Option.some.inj hd
    exact delimits_of_isSpace (hws c List.mem_cons_self)

/-- A number ends in front of a character that can be no part of it. -/
theorem ends_cons {c : Char} (hc : Delimits c) (r : List Char) : Ends (c :: r) := by
  intro d hd
  obtain rfl : c = d := Option.some.inj hd
  exact hc

variable {st : Style}

theorem ends_writeItems (level : Nat) (xs : List Json) {r : List Char} (hr : Ends r) :
    Ends (writeItems st level xs ++ r) := by
  cases xs with
  | nil => exact hr
  | cons x xs => exact ends_cons (by decide) _

theorem ends_writeFields (level : Nat) (fs : List (String × Json)) {r : List Char} (hr : Ends r) :
    Ends (writeFields st level fs ++ r) := by
  cases fs with
  | nil => exact hr
  | cons e fs => exact ends_cons (by decide) _

/-! ## The machine over a text -/

open Reading in
mutual
/-- **Over the text of a value** the machine goes on as over one token. -/
theorem run?_write (hst : st.Blank) : ∀ (v : Json) (level : Nat) {s : Reading} {stack : List Frame}
    {r : List Char}, s.Takes stack → Ends r →
    s.run? (write st level v ++ r) = (supply v.spell stack).run? r
  | .null, _, _, _, _, hs, _ => run?_token rfl (hs rfl)
  | .bool true, _, _, _, _, hs, _ => run?_token rfl (hs rfl)
  | .bool false, _, _, _, _, hs, _ => run?_token rfl (hs rfl)
  | .number n, level, s, stack, r, hs, hr => by
    rw [write, spell, Number.text?_eq]
    cases hl : n.literal? with
    | none => exact run?_token rfl (hs rfl)
    | some l => exact run?_token (scan?_write (Number.grammatical_literal? hl) hr) (hs rfl)
  | .string t, _, _, _, _, hs, _ => run?_token (scan?_quoted t _) (hs rfl)
  | .array [], _, _, _, _, hs, _ => (run?_token rfl (hs rfl)).trans (run?_token rfl rfl)
  | .array (x :: xs), level, s, stack, r, hs, hr => by
    have hclose : Ends (st.lineBreak level ++ ']' :: r) :=
      ends_blank (hst.lineBreak level) (ends_cons (by decide) r)
    calc s.run? (write st level (.array (x :: xs)) ++ r)
        = s.run? ('[' :: (st.lineBreak (level + 1) ++ (write st (level + 1) x
            ++ (writeItems st (level + 1) xs ++ (st.lineBreak level ++ ']' :: r))))) := by
          simp only [write, List.cons_append, List.append_assoc, List.nil_append]
      _ = (firstItem stack).run? (write st (level + 1) x
            ++ (writeItems st (level + 1) xs ++ (st.lineBreak level ++ ']' :: r))) :=
          (run?_token rfl (hs rfl)).trans (run?_blank (hst.lineBreak _))
      _ = (afterItem [x.spell] stack).run?
            (writeItems st (level + 1) xs ++ (st.lineBreak level ++ ']' :: r)) :=
          run?_write hst x (level + 1) (takes_firstItem stack) (ends_writeItems _ xs hclose)
      _ = (afterItem ((spellItems xs).reverse ++ [x.spell]) stack).run? (']' :: r) :=
          (run?_writeItems hst xs (level + 1) [x.spell] stack hclose).trans
            (run?_blank (hst.lineBreak _))
      _ = (supply (.array ((spellItems xs).reverse ++ [x.spell]).reverse) stack).run? r :=
          run?_token rfl rfl
      _ = (supply (spell (.array (x :: xs))) stack).run? r := by
          -- items were collected last one first
          rw [List.reverse_append, List.reverse_reverse]
          rfl
  | .object [], _, _, _, _, hs, _ => (run?_token rfl (hs rfl)).trans (run?_token rfl rfl)
  | .object ((k, v) :: fs), level, s, stack, r, hs, hr => by
    have hclose : Ends (st.lineBreak level ++ '}' :: r) :=
      ends_blank (hst.lineBreak level) (ends_cons (by decide) r)
    calc s.run? (write st level (.object ((k, v) :: fs)) ++ r)
        = s.run? ('{' :: (st.lineBreak (level + 1) ++ (quoted k.toList ++ ':' :: (st.afterColon
            ++ (write st (level + 1) v ++ (writeFields st (level + 1) fs
              ++ (st.lineBreak level ++ '}' :: r))))))) := by
          simp only [write, List.cons_append, List.append_assoc, List.nil_append]
      _ = (firstKey stack).run? (quoted k.toList ++ ':' :: (st.afterColon
            ++ (write st (level + 1) v ++ (writeFields st (level + 1) fs
              ++ (st.lineBreak level ++ '}' :: r))))) :=
          (run?_token rfl (hs rfl)).trans (run?_blank (hst.lineBreak _))
      _ = (value (.fields [] k :: stack)).run? (write st (level + 1) v
            ++ (writeFields st (level + 1) fs ++ (st.lineBreak level ++ '}' :: r))) :=
          (run?_token (scan?_quoted k _) rfl).trans
            ((run?_token rfl rfl).trans (run?_blank hst.afterColon))
      _ = (afterField [(some k, v.spell)] stack).run?
            (writeFields st (level + 1) fs ++ (st.lineBreak level ++ '}' :: r)) :=
          run?_write hst v (level + 1) (takes_value _) (ends_writeFields _ fs hclose)
      _ = (afterField ((spellFields fs).reverse ++ [(some k, v.spell)]) stack).run? ('}' :: r) :=
          (run?_writeFields hst fs (level + 1) [(some k, v.spell)] stack hclose).trans
            (run?_blank (hst.lineBreak _))
      _ = (supply (.object ((spellFields fs).reverse ++ [(some k, v.spell)]).reverse) stack).run? r :=
          run?_token rfl rfl
      _ = (supply (spell (.object ((k, v) :: fs))) stack).run? r := by
          rw [List.reverse_append, List.reverse_reverse]
          rfl

/-- Over the items behind the first, each behind its comma. -/
theorem run?_writeItems (hst : st.Blank) : ∀ (xs : List Json) (level : Nat) (done : List Source)
    (stack : List Frame) {r : List Char}, Ends r →
    (afterItem done stack).run? (writeItems st level xs ++ r)
      = (afterItem ((spellItems xs).reverse ++ done) stack).run? r
  | [], _, _, _, _, _ => rfl
  | x :: xs, level, done, stack, r, hr => by
    calc (afterItem done stack).run? (writeItems st level (x :: xs) ++ r)
        = (afterItem done stack).run?
            (',' :: (st.lineBreak level ++ (write st level x ++ (writeItems st level xs ++ r)))) := by
          simp only [writeItems, List.cons_append, List.append_assoc]
      _ = (value (.items done :: stack)).run? (write st level x ++ (writeItems st level xs ++ r)) :=
          (run?_token rfl rfl).trans (run?_blank (hst.lineBreak _))
      _ = (afterItem (x.spell :: done) stack).run? (writeItems st level xs ++ r) :=
          run?_write hst x level (takes_value _) (ends_writeItems _ xs hr)
      _ = (afterItem ((spellItems xs).reverse ++ x.spell :: done) stack).run? r :=
          run?_writeItems hst xs level (x.spell :: done) stack hr
      _ = (afterItem ((spellItems (x :: xs)).reverse ++ done) stack).run? r := by
          rw [spellItems, List.reverse_cons, List.append_assoc]
          rfl

/-- Over the fields behind the first, each behind its comma. -/
theorem run?_writeFields (hst : st.Blank) : ∀ (fs : List (String × Json)) (level : Nat)
    (done : List (Option String × Source)) (stack : List Frame) {r : List Char}, Ends r →
    (afterField done stack).run? (writeFields st level fs ++ r)
      = (afterField ((spellFields fs).reverse ++ done) stack).run? r
  | [], _, _, _, _, _ => rfl
  | (k, v) :: fs, level, done, stack, r, hr => by
    calc (afterField done stack).run? (writeFields st level ((k, v) :: fs) ++ r)
        = (afterField done stack).run? (',' :: (st.lineBreak level ++ (quoted k.toList
            ++ ':' :: (st.afterColon ++ (write st level v ++ (writeFields st level fs ++ r)))))) := by
          simp only [writeFields, List.cons_append, List.append_assoc]
      _ = (nextKey done stack).run? (quoted k.toList ++ ':' :: (st.afterColon
            ++ (write st level v ++ (writeFields st level fs ++ r)))) :=
          (run?_token rfl rfl).trans (run?_blank (hst.lineBreak _))
      _ = (value (.fields done k :: stack)).run?
            (write st level v ++ (writeFields st level fs ++ r)) :=
          (run?_token (scan?_quoted k _) rfl).trans
            ((run?_token rfl rfl).trans (run?_blank hst.afterColon))
      _ = (afterField ((some k, v.spell) :: done) stack).run? (writeFields st level fs ++ r) :=
          run?_write hst v level (takes_value _) (ends_writeFields _ fs hr)
      _ = (afterField ((spellFields fs).reverse ++ (some k, v.spell) :: done) stack).run? r :=
          run?_writeFields hst fs level _ stack hr
      _ = (afterField ((spellFields ((k, v) :: fs)).reverse ++ done) stack).run? r := by
          rw [spellFields, List.reverse_cons, List.append_assoc]
          rfl
end

/-- **The text of a value**, in any style, is read as the spelling of that value. -/
theorem ofText?_write (hst : st.Blank) (v : Json) :
    Source.ofText? (String.ofList (write st 0 v)) = some v.spell := by
  have hrun := run?_write hst v 0 (Reading.takes_value []) (r := []) nofun
  rw [List.append_nil] at hrun
  rw [Source.ofText?, String.toList_ofList, hrun]
  exact Reading.run?_eq _ []

end PageBuilder.Json
