/-
  A class in place of those of its family.

  Programs:       `ClassList.replace`, `ClassList.setWidth`.
  Specification:  `replace_laws` — replacing is idempotent, the last class of a family wins, and the
                  classes outside the family stay, each as often as it was there and in order.
  Crux:           `words_replace` — the text that comes out is read back word for word, so all laws are
                  laws of lists; a new class that is there already is not put there again, and that
                  is decided among the classes outside the family only.
-/
import PageBuilder.ClassList
import PageBuilder.Proofs.Text.Words

namespace PageBuilder.ClassList

open Text

variable {family : Family} {current m n w : String}

/-! ## The classes after a replacement -/

/-- What a new class adds to the classes that are kept: itself, unless it is empty or among them. -/
def added (kept : List String) (new : String) : List String :=
  if new = "" ∨ new ∈ kept then [] else [new]

/-- What is outside the family stays, and the new class is added. -/
theorem replace_eq (family : Family) (current new : String) :
    replace family current new
      = joinWords (outside family current ++ added (outside family current) new) := by
  unfold replace added
  by_cases h : new = "" ∨ new ∈ outside family current <;> simp [h]

/-- A class that is added is a word. -/
theorem isWord_of_mem_added {kept : List String} (hn : ∀ c ∈ n.toList, isBlank c = false)
    (h : w ∈ added kept n) : w = n ∧ IsWord w := by
  unfold added at h
  split at h
  · nomatch h
  · next hnew =>
    obtain rfl := List.mem_singleton.1 h
    exact ⟨rfl, fun hempty => hnew (Or.inl hempty), hn⟩

/-- **The classes after a replacement**: those outside the family, and what the new one adds. -/
theorem words_replace (family : Family) (current : String)
    (hn : ∀ c ∈ n.toList, isBlank c = false) :
    words (replace family current n)
      = outside family current ++ added (outside family current) n := by
  rw [replace_eq]
  refine words_joinWords fun w hw => ?_
  rcases List.mem_append.1 hw with hw | hw
  · exact isWord_of_mem_words (List.mem_filter.1 hw).1
  · exact (isWord_of_mem_added hn hw).2

/-- Of these, a new class of the family, or an empty one, is outside the family no more. -/
theorem outside_replace (family : Family) (current : String)
    (hn : ∀ c ∈ n.toList, isBlank c = false) (hfamily : family n = true ∨ n = "") :
    outside family (replace family current n) = outside family current := by
  have hadded : (added (outside family current) n).filter (fun c => !family c) = [] := by
    refine List.filter_eq_nil_iff.2 fun w hw => ?_
    obtain ⟨rfl, hword⟩ := isWord_of_mem_added hn hw
    simp [hfamily.resolve_right hword.ne_empty]
  rw [outside, words_replace family current hn, List.filter_append, hadded, List.append_nil,
    outside, List.filter_filter]
  exact List.filter_congr fun c _ => Bool.and_self _

/-- What comes out depends on the classes outside the family. -/
theorem replace_congr {other : String} (h : outside family other = outside family current)
    (new : String) : replace family other new = replace family current new := by
  rw [replace_eq, replace_eq, h]

/-- **The last class of a family wins.** -/
theorem replace_replace (hn : ∀ c ∈ n.toList, isBlank c = false)
    (hfamily : family n = true ∨ n = "") (current m : String) :
    replace family (replace family current n) m = replace family current m :=
  replace_congr (outside_replace family current hn hfamily) m

/-- The result has one blank between two classes, and no other. -/
theorem joinWords_words_replace (family : Family) (current : String)
    (hn : ∀ c ∈ n.toList, isBlank c = false) :
    joinWords (words (replace family current n)) = replace family current n := by
  rw [words_replace family current hn, replace_eq]

/-- **A second time** the same class changes nothing. -/
theorem replace_self (family : Family) (current : String)
    (hn : ∀ c ∈ n.toList, isBlank c = false) :
    replace family (replace family current n) n = replace family current n := by
  by_cases hfamily : family n = true ∨ n = ""
  · exact replace_replace hn hfamily current n
  · obtain ⟨houtside, hne⟩ := not_or.1 hfamily
    -- a class outside the family is kept the second time, and found there
    have hkeep : outside family (replace family current n) = words (replace family current n) := by
      refine List.filter_eq_self.2 fun w hw => ?_
      rw [words_replace family current hn] at hw
      rcases List.mem_append.1 hw with hw | hw
      · exact (List.mem_filter.1 hw).2
      · rw [(isWord_of_mem_added hn hw).1]
        simpa using houtside
    have hthere : n ∈ words (replace family current n) := by
      rw [words_replace family current hn, added]
      by_cases hmem : n ∈ outside family current
      · exact List.mem_append_left _ hmem
      · rw [if_neg (not_or.2 ⟨hne, hmem⟩)]
        exact List.mem_append_right _ (List.mem_singleton_self n)
    rw [replace_eq, hkeep, added, if_pos (Or.inr hthere), List.append_nil,
      joinWords_words_replace family current hn]

/-- Of the family, no class but the new one is left. -/
theorem eq_of_mem_words_replace (hn : ∀ c ∈ n.toList, isBlank c = false)
    (hw : w ∈ words (replace family current n)) (hfamily : family w = true) : w = n := by
  rw [words_replace family current hn] at hw
  rcases List.mem_append.1 hw with hw | hw
  · have hnot := (List.mem_filter.1 hw).2
    rw [hfamily] at hnot
    nomatch hnot
  · exact (isWord_of_mem_added hn hw).1

/-! ## Widths -/

/-- Characters that are seen not to be blank, one by one. -/
theorem not_isBlank_of_all {cs : List Char} (h : cs.all (fun c => !isBlank c) = true) :
    ∀ c ∈ cs, isBlank c = false := fun c hc => by simpa using List.all_eq_true.1 h c hc

/-- A digit is no blank. -/
theorem not_isBlank_of_isDecimalDigit {c : Char} (h : isDecimalDigit c = true) :
    isBlank c = false := by
  have hapart : ∀ k ∈ whiteSpace, ∀ r ∈ decimalDigits, ¬(r.1 ≤ k ∧ k ≤ r.2) := by decide +kernel
  obtain ⟨r, hr, hin⟩ := (CharacterSet.contains_iff _ _).1 h
  rw [Bool.eq_false_iff]
  exact fun hblank => hapart _ ((isBlank_iff c).1 hblank) r hr hin

theorem isDecimalDigit_of_isNumeral {cs : List Char} (h : isNumeral cs = true) :
    ∀ c ∈ cs, isDecimalDigit c = true :=
  List.all_eq_true.1 (Bool.and_eq_true_iff.1 h).2

/-- A fraction is made of digits and a slash. -/
theorem isDecimalDigit_of_isFraction {cs : List Char} (h : isFraction cs = true) :
    ∀ c ∈ cs, isDecimalDigit c = true ∨ c = '/' := by
  have hfront : ∀ c ∈ cs.takeWhile isDecimalDigit, isDecimalDigit c = true := fun c hc =>
    List.all_eq_true.1 List.all_takeWhile c hc
  intro c hc
  rw [← List.takeWhile_append_dropWhile (p := isDecimalDigit) (l := cs), List.mem_append] at hc
  rcases hc with hc | hc
  · exact Or.inl (hfront c hc)
  · unfold isFraction at h
    -- a whole number, or one behind a slash
    split at h
    · next hnil =>
      rw [hnil] at hc
      nomatch hc
    · next r hslash =>
      rw [hslash] at hc
      rcases List.mem_cons.1 hc with hc | hc
      · exact Or.inr hc
      · exact Or.inl (isDecimalDigit_of_isNumeral (Bool.and_eq_true_iff.1 h).2 c hc)
    · nomatch h

/-- A width is a word. -/
theorem solid_of_width (h : width w = true) : w ≠ "" ∧ ∀ c ∈ w.toList, isBlank c = false := by
  unfold width at h
  split at h
  · next r hw =>
    refine ⟨fun hempty => ?_, ?_⟩
    · rw [hempty] at hw
      nomatch hw
    rw [hw, List.forall_mem_cons, List.forall_mem_cons]
    refine ⟨by decide, by decide, fun c hc => ?_⟩
    rw [Bool.or_eq_true, Bool.or_eq_true, Bool.or_eq_true, beq_iff_eq, beq_iff_eq, beq_iff_eq] at h
    -- one of three words, or a fraction
    rcases h with ((rfl | rfl) | rfl) | h
    · exact not_isBlank_of_all (by decide) c hc
    · exact not_isBlank_of_all (by decide) c hc
    · exact not_isBlank_of_all (by decide) c hc
    · rcases isDecimalDigit_of_isFraction h c hc with hdigit | rfl
      · exact not_isBlank_of_isDecimalDigit hdigit
      · decide
  · nomatch h

/-- **One width** is there when a width was set. -/
theorem filter_width_setWidth (current : String) (h : width w = true) :
    (words (setWidth current w)).filter width = [w] := by
  obtain ⟨hne, hsolid⟩ := solid_of_width h
  have hkept : (outside width current).filter width = [] :=
    List.filter_eq_nil_iff.2 fun c hc => by simpa using (List.mem_filter.1 hc).2
  have hnew : w ∉ outside width current := fun hmem => by
    simpa [h] using (List.mem_filter.1 hmem).2
  rw [setWidth, words_replace width current hsolid, List.filter_append, hkept, added,
    if_neg (not_or.2 ⟨hne, hnew⟩), List.nil_append, List.filter_cons_of_pos h, List.filter_nil]

/-! ## The laws -/

/-- **Replacing a class.**

For every text of classes, every family and every new class without a blank in it, the empty one among
them: the classes that come out are those outside the family, in their order and each as often as it was
there, and behind them the new class, unless it is empty or one of them; no other class of the family is
left, and the text has one blank between two classes.  Doing it again changes nothing.  After a class of
the family, or after the empty one, another replacement does what it would have done without it.  With a
width of the width family exactly one width is there.  Classes are the pieces of a text between
characters of white space, the empty pieces aside. -/
theorem replace_laws (family : Family) (current n : String)
    (hn : ∀ c ∈ n.toList, isBlank c = false) :
    let kept := (words current).filter fun c => !family c
    let after := replace family current n
    (words after = kept ++ if n = "" ∨ n ∈ kept then [] else [n]) ∧
    (∀ w ∈ words after, family w = true → w = n) ∧
    joinWords (words after) = after ∧
    replace family after n = after ∧
    (family n = true ∨ n = "" → ∀ m, replace family after m = replace family current m) ∧
    (∀ w, width w = true → (words (setWidth current w)).filter width = [w]) ∧
    (∀ s, words s = ((s.toList.splitOnP isBlank).filter (!·.isEmpty)).map String.ofList) ∧
    ∀ c, isBlank c = true ↔ c.toNat ∈ whiteSpace := by
  intro kept after
  refine ⟨words_replace family current hn, ?_, joinWords_words_replace family current hn,
    replace_self family current hn, ?_, ?_, words_eq, isBlank_iff⟩
  · intro w hw hfamily
    exact eq_of_mem_words_replace hn hw hfamily
  · intro hfamily m
    exact replace_replace hn hfamily current m
  · intro w hw
    exact filter_width_setWidth current hw

/-- Paddings on both sides of a class that comes twice, with a blank of another kind between them. -/
theorem replace_laws_paddings :
    (∀ c ∈ "p-8".toList, isBlank c = false) ∧
    replace padding "p-4\u3000flex flex  p-8" "p-8" = "flex flex p-8" ∧
    replace padding "flex flex p-8" "p-8" = "flex flex p-8" ∧
    replace padding "flex flex p-8" "" = replace padding "p-4\u3000flex flex  p-8" "" := by
  have hsolid : ∀ c ∈ "p-8".toList, isBlank c = false := not_isBlank_of_all (by decide)
  have hafter : replace padding "p-4\u3000flex flex  p-8" "p-8" = "flex flex p-8" := by
    decide +kernel
  obtain ⟨-, -, -, hagain, hlast, -⟩ := replace_laws padding "p-4\u3000flex flex  p-8" "p-8" hsolid
  rw [hafter] at hagain hlast
  exact ⟨hsolid, hafter, hagain, hlast (Or.inl (by decide)) ""⟩

end PageBuilder.ClassList
