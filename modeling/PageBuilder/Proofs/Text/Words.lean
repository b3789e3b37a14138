/-
  The words of a text, and texts made of words.

  Programs:       `words`, `joinWords`.
  Specification:  `words_eq` — the words are the pieces between the blanks, empty pieces left out;
                  `words_joinWords` — words that are joined are read back as they were.
  Crux:           a word with a blank in it, or one without a character, would not be read back: the
                  words of a text are neither (`isWord_of_mem_words`).
-/
import PageBuilder.Text.Blank

namespace PageBuilder.Text

/-- **White space**: the code points that have the property White_Space. -/
def whiteSpace : List Nat :=
  [9, 10, 11, 12, 13, 32, 133, 160, 5760, 8192, 8193, 8194, 8195, 8196, 8197, 8198, 8199, 8200, 8201,
    8202, 8232, 8233, 8239, 8287, 12288]

theorem isBlank_iff (c : Char) : isBlank c = true ↔ c.toNat ∈ whiteSpace := by
  simp only [isBlank, CharacterSet.contains_iff, blanks, whiteSpace, List.mem_cons,
    List.not_mem_nil, or_false, exists_eq_or_imp, exists_eq_left]
  omega

/-- **What may stand as a word**: it has a character, and no blank among its characters. -/
structure IsWord (w : String) : Prop where
  ne_empty : w ≠ ""
  solid : ∀ c ∈ w.toList, isBlank c = false

/-! ## The words of a text -/

/-- Words are the pieces between blanks, the empty ones aside. -/
theorem wordsFrom_eq (cs : List Char) : ∀ word,
    wordsFrom word cs = (List.splitOnPPrepend isBlank cs word).filter (!·.isEmpty) := by
  induction cs with
  | nil =>
    intro word
    cases word <;> simp [wordsFrom]
  | cons c cs ih =>
    intro word
    rw [wordsFrom, List.splitOnPPrepend_cons_eq_if]
    split
    · cases word <;> simp [ih]
    · exact ih (c :: word)

theorem words_eq (s : String) :
    words s = ((s.toList.splitOnP isBlank).filter (!·.isEmpty)).map String.ofList :=
  congrArg (List.map String.ofList) (wordsFrom_eq s.toList [])

/-- A word of a text is a word. -/
theorem isWord_of_mem_words {s w : String} (h : w ∈ words s) : IsWord w := by
  obtain ⟨cs, hcs, rfl⟩ := List.mem_map.1 h
  constructor
  · rw [ne_eq, String.ofList_eq_empty_iff]
    exact wordsFrom_ne_nil s.toList [] cs hcs
  · rw [String.toList_ofList]
    exact not_isBlank_of_mem_wordsFrom s.toList [] nofun cs hcs

/-! ## Joined words -/

/-- The characters of a word are read into the word that is under way. -/
theorem wordsFrom_append {w : List Char} (hw : ∀ c ∈ w, isBlank c = false) (rest : List Char) :
    ∀ word, wordsFrom word (w ++ rest) = wordsFrom (w.reverse ++ word) rest := by
  induction w with
  | nil => exact fun word => rfl
  | cons c w ih =>
    intro word
    obtain ⟨hc, hw⟩ := List.forall_mem_cons.1 hw
    rw [List.cons_append, wordsFrom, hc, if_neg Bool.false_ne_true, ih hw, List.reverse_cons,
      List.append_assoc, List.singleton_append]

/-- **A word in front**, with nothing behind it or a blank. -/
theorem wordsFrom_word {w : List Char} (hne : w ≠ []) (hw : ∀ c ∈ w, isBlank c = false) :
    wordsFrom [] w = [w] ∧ ∀ rest, wordsFrom [] (w ++ ' ' :: rest) = w :: wordsFrom [] rest := by
  have hreverse : w.reverse.isEmpty = false := by simpa using hne
  constructor
  · have hread := wordsFrom_append hw [] []
    rw [List.append_nil, List.append_nil] at hread
    rw [hread, wordsFrom, hreverse, List.reverse_reverse]
    rfl
  · intro rest
    have hblank : isBlank ' ' = true := by decide
    rw [wordsFrom_append hw, List.append_nil, wordsFrom, hblank, hreverse, List.reverse_reverse]
    rfl

/-- Words joined by spaces are the words that they were. -/
theorem wordsFrom_intercalate : ∀ {ws : List (List Char)},
    (∀ w ∈ ws, w ≠ [] ∧ ∀ c ∈ w, isBlank c = false) → wordsFrom [] ([' '].intercalate ws) = ws
  | [], _ => rfl
  | [w], h => by
    obtain ⟨hne, hw⟩ := h w List.mem_cons_self
    rw [List.intercalate_singleton]
    exact (wordsFrom_word hne hw).1
  | w :: v :: ws, h => by
    obtain ⟨⟨hne, hw⟩, hrest⟩ := List.forall_mem_cons.1 h
    rw [List.intercalate_cons_cons, List.append_assoc, List.singleton_append,
      (wordsFrom_word hne hw).2, wordsFrom_intercalate hrest]

/-- **Joined words are read back.** -/
theorem words_joinWords {ws : List String} (h : ∀ w ∈ ws, IsWord w) : words (joinWords ws) = ws := by
  have hchars : ∀ w ∈ ws.map String.toList, w ≠ [] ∧ ∀ c ∈ w, isBlank c = false := by
    intro w hw
    obtain ⟨s, hs, rfl⟩ := List.mem_map.1 hw
    exact ⟨fun hnil => (h s hs).ne_empty (String.toList_eq_nil_iff.1 hnil), (h s hs).solid⟩
  have hmark : " ".toList = [' '] := by decide
  unfold words joinWords
  rw [String.toList_intercalate, hmark, wordsFrom_intercalate hchars, List.map_map]
  have hid : String.ofList ∘ String.toList = id := funext fun s => String.ofList_toList
  rw [hid, List.map_id]

end PageBuilder.Text
