/-
  The lowercase of a part of a text.

  Lowercase goes character by character but for the capital sigma, whose form depends on what stands
  around it.  So what occurs in a text may not occur in it any more once both are lowercase.

  Programs:       `readsAlike` — whether every sigma of a part has in a text the form that it has in the
                  part alone; `isSettled` — whether that is so in every text.
  Specification:  `infix_lowercase_of_readsAlike` — a part that reads alike occurs in lowercase as well;
                  `infix_lowercase_iff` — a settled text does wherever it occurs, and no other does.
  Crux:           a cased letter in front of a text, or behind it, changes sigmas in one direction only:
                  in front it makes them final, behind it makes them not so.  So the form that an
                  unsettled sigma had is there less often than before, and the letter itself is no sigma
                  (`count_lowerWithin_lt`).
-/
import Mathlib.Data.List.Infix
import PageBuilder.Text.Lowercase

namespace PageBuilder.Text

/-! ## The form of a sigma -/

/-- Whether a sigma between two texts takes its final form; the one before it is in reverse. -/
def isFinal (before after : List Char) : Bool := meetsCased before && !meetsCased after

/-- A capital sigma becomes one of two letters. -/
theorem lowerBetween_sigma (before after : List Char) :
    lowerBetween before 'Σ' after = [if isFinal before after then 'ς' else 'σ'] := by
  unfold lowerBetween isFinal
  rw [if_pos rfl]
  split <;> rfl

theorem lowerBetween_of_ne {c : Char} (h : c ≠ 'Σ') (before after : List Char) :
    lowerBetween before c after = lowerCharacter c := if_neg h

/-- The character that decides on one side of a sigma: the nearest one that is not passed over. -/
def nearest? (cs : List Char) : Option Char := (cs.dropWhile isCaseIgnorable).head?

theorem meetsCased_eq (cs : List Char) : meetsCased cs = (nearest? cs).any isCased := by
  unfold meetsCased nearest?
  cases cs.dropWhile isCaseIgnorable <;> rfl

theorem nearest?_append (xs ys : List Char) :
    nearest? (xs ++ ys) = (nearest? xs).or (nearest? ys) := by
  unfold nearest?
  rw [List.dropWhile_append]
  cases xs.dropWhile isCaseIgnorable <;> rfl

theorem meetsCased_append (xs ys : List Char) :
    meetsCased (xs ++ ys) = if (nearest? xs).isSome then meetsCased xs else meetsCased ys := by
  rw [meetsCased_eq, meetsCased_eq, meetsCased_eq, nearest?_append]
  cases nearest? xs <;> rfl

/-! ## Settled texts -/

/-- Whether two texts settle the form of a sigma between them, whatever stands farther off. -/
def settles (before after : List Char) : Bool :=
  match nearest? before, nearest? after with
  | some _, some _ => true
  | some c, none => !isCased c
  | none, some c => isCased c
  | none, none => false

/-- Whether every sigma of what follows `seen` is settled. -/
def settledFrom (seen : List Char) : List Char → Bool
  | [] => true
  | c :: cs => (c != 'Σ' || settles seen cs) && settledFrom (c :: seen) cs

/-- **Whether a text is settled**: every capital sigma of it has a form that no surroundings change. -/
def isSettled (s : String) : Bool := settledFrom [] s.toList

/-- Whether the sigmas of a part have in a text the form that they have in the part alone; what stands
in front of the part, and what was seen of it, are in reverse. -/
def readsAlike (before after : List Char) (seen : List Char) : List Char → Bool
  | [] => true
  | c :: cs =>
    (c != 'Σ' || isFinal (seen ++ before) (cs ++ after) == isFinal seen cs)
      && readsAlike before after (c :: seen) cs

variable {before after : List Char}

/-- What settles a sigma settles it in any surroundings. -/
theorem isFinal_of_settles {xs ys : List Char} (h : settles xs ys = true) :
    isFinal (xs ++ before) (ys ++ after) = isFinal xs ys := by
  unfold isFinal
  rw [meetsCased_append, meetsCased_append, meetsCased_eq xs, meetsCased_eq ys]
  unfold settles at h
  revert h
  cases nearest? xs <;> cases nearest? ys <;> simp_all

/-- Settled sigmas have their form in any text. -/
theorem readsAlike_of_settledFrom {seen part : List Char} (h : settledFrom seen part = true) :
    readsAlike before after seen part = true := by
  induction part generalizing seen with
  | nil => rfl
  | cons c cs ih =>
    obtain ⟨hc, hcs⟩ := Bool.and_eq_true_iff.1 h
    refine Bool.and_eq_true_iff.2 ⟨?_, ih hcs⟩
    rcases Bool.or_eq_true_iff.1 hc with hne | hsettles
    · exact Bool.or_eq_true_iff.2 (Or.inl hne)
    · exact Bool.or_eq_true_iff.2 (Or.inr (beq_iff_eq.2 (isFinal_of_settles hsettles)))

/-- An unsettled text has a sigma that is not settled. -/
theorem exists_of_not_settledFrom {seen part : List Char} (h : settledFrom seen part = false) :
    ∃ front back, part = front ++ 'Σ' :: back ∧ settles (front.reverse ++ seen) back = false := by
  induction part generalizing seen with
  | nil => nomatch h
  | cons c cs ih =>
    rw [settledFrom] at h
    rcases Bool.and_eq_false_iff.1 h with hc | hcs
    · obtain ⟨heq, hsettles⟩ := Bool.or_eq_false_iff.1 hc
      obtain rfl : c = 'Σ' := by simpa using heq
      exact ⟨[], cs, rfl, hsettles⟩
    · obtain ⟨front, back, rfl, hsettles⟩ := ih hcs
      refine ⟨c :: front, back, rfl, ?_⟩
      rwa [List.reverse_cons, List.append_assoc]

/-! ## Parts of a text in lowercase -/

/-- **The lowercase of a part** that stands between two texts. -/
def lowerWithin (after : List Char) (before : List Char) : List Char → List Char
  | [] => []
  | c :: cs => lowerBetween before c (cs ++ after) ++ lowerWithin after (c :: before) cs

/-- The lowercase of a text in two parts. -/
theorem lowerFrom_append (before part after : List Char) :
    lowerFrom before (part ++ after)
      = lowerWithin after before part ++ lowerFrom (part.reverse ++ before) after := by
  induction part generalizing before with
  | nil => rfl
  | cons c cs ih =>
    rw [List.cons_append, lowerFrom, ih, lowerWithin, List.reverse_cons, List.append_assoc,
      List.append_assoc]
    rfl

theorem lowerFrom_eq (before part : List Char) :
    lowerFrom before part = lowerWithin [] before part := by
  have happend := lowerFrom_append before part []
  rwa [List.append_nil, lowerFrom, List.append_nil] at happend

/-- The lowercase of a part in two parts. -/
theorem lowerWithin_append (after before xs ys : List Char) :
    lowerWithin after before (xs ++ ys)
      = lowerWithin (ys ++ after) before xs ++ lowerWithin after (xs.reverse ++ before) ys := by
  induction xs generalizing before with
  | nil => rfl
  | cons c cs ih =>
    rw [List.cons_append, lowerWithin, ih, lowerWithin, List.reverse_cons, List.append_assoc,
      List.append_assoc, List.append_assoc]
    rfl

theorem toList_lowercase (s : String) : (lowercase s).toList = lowerFrom [] s.toList :=
  String.toList_ofList

/-- A part that reads alike is the same in lowercase as alone. -/
theorem lowerWithin_of_readsAlike {seen part : List Char}
    (h : readsAlike before after seen part = true) :
    lowerWithin after (seen ++ before) part = lowerFrom seen part := by
  induction part generalizing seen with
  | nil => rfl
  | cons c cs ih =>
    obtain ⟨hc, hcs⟩ := Bool.and_eq_true_iff.1 h
    have hhead : lowerBetween (seen ++ before) c (cs ++ after) = lowerBetween seen c cs := by
      by_cases hsigma : c = 'Σ'
      · subst hsigma
        have hsame : isFinal (seen ++ before) (cs ++ after) = isFinal seen cs := by simpa using hc
        rw [lowerBetween_sigma, lowerBetween_sigma, hsame]
      · rw [lowerBetween_of_ne hsigma, lowerBetween_of_ne hsigma]
    rw [lowerWithin, lowerFrom, hhead]
    exact congrArg _ (ih hcs)

/-- **A part that reads alike** occurs in lowercase as well. -/
theorem infix_lowercase_of_readsAlike {part text : String}
    (htext : text.toList = before ++ part.toList ++ after)
    (h : readsAlike before.reverse after [] part.toList = true) :
    (lowercase part).toList <:+: (lowercase text).toList := by
  have hpart := lowerWithin_of_readsAlike h
  rw [List.nil_append] at hpart
  rw [toList_lowercase, toList_lowercase, htext, List.append_assoc, lowerFrom_append,
    lowerFrom_append, List.append_nil, hpart, ← List.append_assoc]
  exact List.infix_append _ _ _

/-! ## Unsettled texts -/

section

variable {x : Char}

/-- Surroundings that take a form away from sigmas, or leave it to them, do so to all sigmas of a text. -/
theorem count_lowerWithin_le
    (h : ∀ a b, (lowerBetween (a ++ before) 'Σ' (b ++ after)).count x ≤ (lowerBetween a 'Σ' b).count x)
    (tail seen part : List Char) :
    (lowerWithin (tail ++ after) (seen ++ before) part).count x
      ≤ (lowerWithin tail seen part).count x := by
  induction part generalizing seen with
  | nil => exact Nat.le_refl _
  | cons c cs ih =>
    have hhead : (lowerBetween (seen ++ before) c (cs ++ (tail ++ after))).count x
        ≤ (lowerBetween seen c (cs ++ tail)).count x := by
      by_cases hsigma : c = 'Σ'
      · rw [hsigma, ← List.append_assoc]
        exact h seen (cs ++ tail)
      · rw [lowerBetween_of_ne hsigma, lowerBetween_of_ne hsigma]
    rw [lowerWithin, lowerWithin, List.count_append, List.count_append]
    exact Nat.add_le_add hhead (ih (c :: seen))

/-- If they take it away from one sigma, it is there less often. -/
theorem count_lowerWithin_lt
    (h : ∀ a b, (lowerBetween (a ++ before) 'Σ' (b ++ after)).count x ≤ (lowerBetween a 'Σ' b).count x)
    {front back : List Char}
    (hlost : (lowerBetween (front.reverse ++ before) 'Σ' (back ++ after)).count x
      < (lowerBetween front.reverse 'Σ' back).count x) :
    (lowerWithin after before (front ++ 'Σ' :: back)).count x
      < (lowerFrom [] (front ++ 'Σ' :: back)).count x := by
  have hfront := count_lowerWithin_le h ('Σ' :: back) [] front
  have hback := count_lowerWithin_le h [] ('Σ' :: front.reverse) back
  rw [List.nil_append] at hfront hback
  rw [lowerFrom_eq, lowerWithin_append, lowerWithin_append, lowerWithin, lowerWithin,
    List.append_nil, List.append_nil, List.append_nil]
  simp only [List.count_append]
  exact Nat.add_lt_add_of_le_of_lt hfront (Nat.add_lt_add_of_lt_of_le hlost hback)

end

theorem lowerBetween_a (before after : List Char) : lowerBetween before 'a' after = ['a'] := by
  rw [lowerBetween_of_ne (by decide)]
  rfl

theorem meetsCased_a : meetsCased ['a'] = true := by decide +kernel

theorem count_final (a b : List Char) :
    (lowerBetween a 'Σ' b).count 'ς' = (isFinal a b).toNat := by
  rw [lowerBetween_sigma]
  cases isFinal a b <;> rfl

theorem count_not_final (a b : List Char) :
    (lowerBetween a 'Σ' b).count 'σ' = (!isFinal a b).toNat := by
  rw [lowerBetween_sigma]
  cases isFinal a b <;> rfl

/-- A letter behind makes no sigma final, and leaves none final where nothing else decides behind. -/
theorem isFinal_behind (a b : List Char) :
    isFinal a (b ++ ['a']) = (isFinal a b && (nearest? b).isSome) := by
  unfold isFinal
  rw [meetsCased_append, meetsCased_eq b, meetsCased_a]
  cases nearest? b <;> simp

/-- A letter in front leaves every sigma final that was, and makes one final where nothing else decides
in front and no cased letter follows. -/
theorem isFinal_in_front (a b : List Char) :
    isFinal (a ++ ['a']) b = (isFinal a b || ((nearest? a).isNone && !meetsCased b)) := by
  unfold isFinal
  rw [meetsCased_append, meetsCased_eq a, meetsCased_a]
  cases nearest? a <;> simp

/-- An unsettled sigma is final with nothing that decides behind it, or nothing decides in front of it
and no cased letter follows. -/
theorem of_not_settles {a b : List Char} (h : settles a b = false) :
    (isFinal a b = true ∧ nearest? b = none) ∨ (nearest? a = none ∧ meetsCased b = false) := by
  unfold settles at h
  unfold isFinal
  rw [meetsCased_eq a, meetsCased_eq b]
  revert h
  cases nearest? a <;> cases nearest? b <;> simp

variable {s : String} {front back : List Char}

/-- With a letter behind the text, a final form is lost. -/
theorem count_lowercase_behind (hs : s.toList = front ++ 'Σ' :: back)
    (hfinal : isFinal front.reverse back = true) (hback : nearest? back = none) :
    (lowercase (String.ofList (s.toList ++ ['a']))).toList.count 'ς'
      < (lowercase s).toList.count 'ς' := by
  -- a letter behind may take the final form away, but never gives it
  have hkept : ∀ a b, (lowerBetween (a ++ []) 'Σ' (b ++ ['a'])).count 'ς'
      ≤ (lowerBetween a 'Σ' b).count 'ς' := by
    intro a b
    rw [List.append_nil, count_final, count_final, isFinal_behind]
    cases isFinal a b
    · exact Nat.zero_le _
    · exact Bool.toNat_le _
  have hlost : (lowerWithin ['a'] [] (front ++ 'Σ' :: back)).count 'ς'
      < (lowerFrom [] (front ++ 'Σ' :: back)).count 'ς' := by
    refine count_lowerWithin_lt hkept ?_
    rw [List.append_nil, count_final, count_final, isFinal_behind, hfinal, hback]
    decide
  have hletter : (lowerFrom (s.toList.reverse ++ []) ['a']).count 'ς' = 0 := by
    rw [lowerFrom, lowerBetween_a]
    rfl
  rw [toList_lowercase, toList_lowercase, String.toList_ofList, lowerFrom_append, List.count_append,
    hletter, hs]
  exact hlost

/-- With a letter in front of the text, a form is lost that was not final. -/
theorem count_lowercase_in_front (hs : s.toList = front ++ 'Σ' :: back)
    (hfront : nearest? front.reverse = none) (hback : meetsCased back = false) :
    (lowercase (String.ofList ('a' :: s.toList))).toList.count 'σ'
      < (lowercase s).toList.count 'σ' := by
  -- a letter in front may give the final form, but never takes it away
  have hkept : ∀ a b, (lowerBetween (a ++ ['a']) 'Σ' (b ++ [])).count 'σ'
      ≤ (lowerBetween a 'Σ' b).count 'σ' := by
    intro a b
    rw [List.append_nil, count_not_final, count_not_final, isFinal_in_front]
    cases isFinal a b
    · exact Bool.toNat_le _
    · exact Nat.le_refl _
  have hlost : (lowerWithin [] ['a'] (front ++ 'Σ' :: back)).count 'σ'
      < (lowerFrom [] (front ++ 'Σ' :: back)).count 'σ' := by
    have halone : isFinal front.reverse back = false := by
      rw [isFinal, meetsCased_eq, hfront]
      rfl
    refine count_lowerWithin_lt hkept ?_
    rw [List.append_nil, count_not_final, count_not_final, isFinal_in_front, halone, hfront, hback]
    decide
  rw [toList_lowercase, toList_lowercase, String.toList_ofList, lowerFrom, lowerBetween_a,
    lowerFrom_eq ['a'], List.count_append, hs, show ['a'].count 'σ' = 0 from rfl, Nat.zero_add]
  exact hlost

/-- A text with fewer of some character does not hold another text. -/
theorem not_infix_of_count_lt {text : String} {x : Char}
    (h : (lowercase text).toList.count x < (lowercase s).toList.count x) :
    ¬ (lowercase s).toList <:+: (lowercase text).toList := by
  intro hoccurs
  exact absurd (hoccurs.sublist.count_le x) (Nat.not_le_of_lt h)

/-- **An unsettled text** occurs in a text in whose lowercase it does not occur. -/
theorem exists_not_infix_lowercase (h : isSettled s = false) :
    ∃ text : String, s.toList <:+: text.toList ∧
      ¬ (lowercase s).toList <:+: (lowercase text).toList := by
  obtain ⟨front, back, hs, hsettles⟩ := exists_of_not_settledFrom h
  rw [List.append_nil] at hsettles
  rcases of_not_settles hsettles with ⟨hfinal, hback⟩ | ⟨hfront, hback⟩
  · refine ⟨String.ofList (s.toList ++ ['a']), ?_,
      not_infix_of_count_lt (count_lowercase_behind hs hfinal hback)⟩
    rw [String.toList_ofList]
    exact (List.prefix_append _ _).isInfix
  · refine ⟨String.ofList ('a' :: s.toList), ?_,
      not_infix_of_count_lt (count_lowercase_in_front hs hfront hback)⟩
    rw [String.toList_ofList]
    exact (List.suffix_cons _ _).isInfix

/-- **What is found in lowercase**: a settled text occurs in the lowercase of every text in which it
occurs, and no other text does. -/
theorem infix_lowercase_iff (s : String) :
    (∀ text : String, s.toList <:+: text.toList →
      (lowercase s).toList <:+: (lowercase text).toList) ↔ isSettled s = true := by
  constructor
  · intro hfound
    by_contra hnot
    obtain ⟨text, hoccurs, hmissed⟩ := exists_not_infix_lowercase (Bool.eq_false_iff.2 hnot)
    exact hmissed (hfound text hoccurs)
  · rintro hsettled text ⟨before, after, htext⟩
    exact infix_lowercase_of_readsAlike htext.symm (readsAlike_of_settledFrom hsettled)

example : isSettled "ΟΔΟΣ" = false := by decide +kernel
example : isSettled "ΣΙΣΥΦΟ" = true := by decide +kernel

end PageBuilder.Text
