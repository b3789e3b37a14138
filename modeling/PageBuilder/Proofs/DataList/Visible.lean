/-
  Which rows of a data list show, and in which order.

  Programs:       `ListItem.texts` — what is searched of a row; `rowLe` — when a row may stand before
                  another one.
  Specification:  `ListSettings.Shows` — which places of the list show, in which order;
                  `visible_spec` — the view is made of such places, shows itself again, and says why it
                  is empty when it is.
  Crux:           `pairwise_mergeSort_of_pairwise` — a stable sort keeps what holds between earlier and
                  later elements wherever the order leaves it open, so both directions and no order at
                  all are one case.
-/
import Mathlib.Data.List.FinRange
import PageBuilder.DataList

namespace PageBuilder

/-! ## Searching -/

/-- Searching finds a text inside another one. -/
theorem occursIn_iff {part text : List Char} : occursIn part text = true ↔ part <:+: text := by
  induction text with
  | nil => rw [occursIn, List.isEmpty_iff, List.infix_nil]
  | cons c cs ih =>
    rw [occursIn, Bool.or_eq_true, List.isPrefixOf_iff_prefix, ih, List.infix_cons_iff]

theorem holdsQuery_iff {query s : String} :
    holdsQuery query s = true ↔ query.toList <:+: (Text.lowercase s).toList :=
  occursIn_iff

namespace ListItem

/-- **What is searched of a row**. -/
def texts (i : ListItem) : List String := i.title :: (i.subtitle.toList ++ i.value.toList)

theorem matchesQuery_iff {query : String} {i : ListItem} :
    i.matchesQuery query = true ↔ ∃ text ∈ i.texts, holdsQuery query text = true := by
  unfold matchesQuery texts
  cases i.subtitle <;> cases i.value <;> simp [or_assoc]

end ListItem

/-! ## Sorting -/

/-- **A stable sort**: the elements are in order, and where either of two might come first they stand as
they stood before. -/
theorem pairwise_mergeSort_of_pairwise {α : Type} {le : α → α → Bool} {R : α → α → Prop}
    (htrans : ∀ a b c, le a b = true → le b c = true → le a c = true)
    (htotal : ∀ a b, (le a b || le b a) = true) {xs : List α} (h : xs.Pairwise R) :
    (xs.mergeSort le).Pairwise fun a b => le a b = true ∧ (le b a = true → R a b) := by
  induction xs with
  | nil =>
    rw [List.mergeSort_nil]
    exact .nil
  | cons x xs ih =>
    obtain ⟨hx, hxs⟩ := List.pairwise_cons.1 h
    have hsorted : ((x :: xs).mergeSort le).Pairwise fun a b => le a b = true :=
      List.pairwise_mergeSort htrans htotal _
    -- the first element goes behind those that must come before it, and in front of all others
    obtain ⟨front, back, hcons, hrest, hfront⟩ := List.mergeSort_cons htrans htotal x xs
    have hkept := ih hxs
    rw [hrest] at hkept
    rw [hcons] at hsorted ⊢
    obtain ⟨hleft, hright, hacross⟩ := List.pairwise_append.1 hkept
    obtain ⟨-, hafter, hbefore⟩ := List.pairwise_append.1 hsorted
    have hback : ∀ b ∈ back, b ∈ xs := by
      intro b hb
      have hmem : b ∈ xs.mergeSort le := by
        rw [hrest]
        exact List.mem_append_right _ hb
      exact List.mem_mergeSort.1 hmem
    refine List.pairwise_append.2 ⟨hleft, List.pairwise_cons.2 ⟨?_, hright⟩, ?_⟩
    · intro b hb
      exact ⟨(List.pairwise_cons.1 hafter).1 b hb, fun _ => hx b (hback b hb)⟩
    · intro a ha b hb
      rcases List.mem_cons.1 hb with rfl | hb
      · refine ⟨hbefore a ha b List.mem_cons_self, fun hle => ?_⟩
        have hnot := hfront a ha
        rw [hle] at hnot
        nomatch hnot
      · exact hacross a ha b hb

namespace ListSettings

/-- The order of texts is the one of their characters. -/
theorem textLe_iff {s t : String} : textLe s.toList t.toList = true ↔ s ≤ t := by
  have hchars : ∀ a b : List Char, textLe a b = true ↔ ¬ b < a := by
    intro a
    induction a with
    | nil => simp [textLe]
    | cons c a ih =>
      intro b
      -- texts are compared character by character, and characters by their numbers
      cases b with
      | nil => simp [textLe]
      | cons d b =>
        have hless : d < c ↔ d.toNat < c.toNat := Iff.rfl
        rw [textLe, Bool.or_eq_true, Bool.and_eq_true, ih, decide_eq_true_iff, beq_iff_eq,
          List.cons_lt_cons_iff, hless, ← Char.toNat_inj]
        by_cases hrest : b < a
        · simp only [hrest, not_true_eq_false, and_false, or_false, and_true]
          omega
        · simp only [hrest, not_false_eq_true, and_true, and_false, or_false]
          omega
  exact hchars s.toList t.toList

theorem textLe_of_eq {s t : String} (h : s = t) : textLe s.toList t.toList = true := by
  rw [h]
  exact textLe_iff.2 (String.le_refl t)

/-- Whether a row may stand before another one; without an order, every row may. -/
def mayPrecede (l : ListSettings) (a b : ListItem) : Bool :=
  let k := l.sortKey.getD .title
  match l.sortOrder.getD .none with
  | .none => true
  | .asc => textLe (a.sortField k).toList (b.sortField k).toList
  | .desc => textLe (b.sortField k).toList (a.sortField k).toList

variable (l : ListSettings)

theorem mayPrecede_total (a b : ListItem) : (l.mayPrecede a b || l.mayPrecede b a) = true := by
  unfold mayPrecede
  cases l.sortOrder.getD .none with
  | none => rfl
  | asc => exact textLe_total _ _
  | desc => exact textLe_total _ _

/-- The order of the rows is transitive. -/
theorem mayPrecede_trans (a b c : ListItem) :
    l.mayPrecede a b = true → l.mayPrecede b c = true → l.mayPrecede a c = true := by
  unfold mayPrecede
  cases l.sortOrder.getD .none with
  | none => exact fun h _ => h
  | asc => exact textLe_trans _ _ _
  | desc => exact fun h h' => textLe_trans _ _ _ h' h

/-- The rows are sorted by their keys, and rows with one key stay in their order. -/
theorem sortBy_eq (le : List Char → List Char → Bool) (k : SortKey) (rows : List ListItem) :
    sortBy le k rows
      = rows.mergeSort fun a b => le (a.sortField k).toList (b.sortField k).toList := by
  unfold sortBy
  rw [← List.map_mergeSort (r := fun a b => le (a.sortField k).toList (b.sortField k).toList)
    fun _ _ _ _ => rfl, List.map_map]
  exact List.map_id _

/-- **The view** is one stable sort of the rows that pass the filter. -/
theorem visible_eq : l.visible = l.filtered.mergeSort l.mayPrecede := by
  unfold visible mayPrecede
  cases l.sortOrder.getD .none with
  | none => exact (List.mergeSort_of_pairwise (List.pairwise_of_forall fun _ _ => rfl)).symm
  | asc => exact sortBy_eq _ _ _
  | desc => exact sortBy_eq _ _ _

/-! ## Filtering -/

/-- Whether a row passes the filter. -/
def passes (i : ListItem) : Bool := l.query == "" || i.matchesQuery l.query

theorem passes_of_none (h : l.filterQuery = none) (i : ListItem) : l.passes i = true := by
  unfold passes query
  rw [h]
  rfl

/-- A row passes if the lowercase of the query occurs in that of one of its texts. -/
theorem passes_iff {q : String} (h : l.filterQuery = some q) (i : ListItem) :
    l.passes i = true ↔
      ∃ text ∈ i.texts, (Text.lowercase q).toList <:+: (Text.lowercase text).toList := by
  have hquery : l.query = Text.lowercase q := by
    unfold query
    rw [h]
    rfl
  unfold passes
  rw [hquery, Bool.or_eq_true, beq_iff_eq, ListItem.matchesQuery_iff]
  simp only [holdsQuery_iff]
  constructor
  · rintro (hempty | hmatch)
    · rw [hempty]
      exact ⟨i.title, List.mem_cons_self, List.nil_infix⟩
    · exact hmatch
  · exact Or.inr

/-- **A row shows** if it is in the list and passes the filter. -/
theorem mem_visible_iff {i : ListItem} : i ∈ l.visible ↔ i ∈ l.items ∧ l.passes i = true := by
  rw [visible_eq, List.mem_mergeSort]
  exact List.mem_filter

/-! ## The places that show -/

/-- **The text that the row at a place sorts by**: the lowercase of its title, or of its value where
the value is chosen; a row without a value sorts as an empty text. -/
def fieldAt (i : Fin l.items.length) : String :=
  match l.sortKey with
  | none | some .title => Text.lowercase (l.items.get i).title
  | some .value =>
    match (l.items.get i).value with
    | none => ""
    | some value => Text.lowercase value

/-- The rows sort by the text of their places. -/
theorem sortField_get (i : Fin l.items.length) :
    (l.items.get i).sortField (l.sortKey.getD .title) = l.fieldAt i := by
  unfold fieldAt ListItem.sortField
  cases l.sortKey with
  | none => rfl
  | some key =>
    cases key with
    | title => rfl
    | value => cases (l.items.get i).value <;> rfl

/-- **Which places of the list show**, in the order in which they show. -/
structure Shows (shown : List (Fin l.items.length)) : Prop where
  rows : l.visible = shown.map l.items.get
  /-- No place shows twice. -/
  nodup : shown.Nodup
  /-- Without a query, or with an empty one, all places show. -/
  all : l.filterQuery = none ∨ l.filterQuery = some "" → ∀ i, i ∈ shown
  /-- With a query, those show of which the title, the subtitle or the value holds it, all in
  lowercase. -/
  found : ∀ q, l.filterQuery = some q → ∀ i, i ∈ shown ↔
    ∃ text ∈ (l.items.get i).texts, (Text.lowercase q).toList <:+: (Text.lowercase text).toList
  /-- Without an order, the places keep their own. -/
  unsorted : l.sortOrder = none ∨ l.sortOrder = some .none → shown.Pairwise (· < ·)
  /-- Upwards, no field is less than one before it, and equal fields keep their order. -/
  rising : l.sortOrder = some .asc →
    shown.Pairwise fun i j => l.fieldAt i ≤ l.fieldAt j ∧ (l.fieldAt i = l.fieldAt j → i < j)
  /-- Downwards, no field is greater than one before it, and equal fields keep their order as well. -/
  falling : l.sortOrder = some .desc →
    shown.Pairwise fun i j => l.fieldAt j ≤ l.fieldAt i ∧ (l.fieldAt i = l.fieldAt j → i < j)

/-- The places that show. -/
def shown : List (Fin l.items.length) :=
  ((List.finRange l.items.length).filter fun i => l.passes (l.items.get i)).mergeSort
    fun i j => l.mayPrecede (l.items.get i) (l.items.get j)

/-- The places that show are those whose rows pass. -/
theorem mem_shown_iff {i : Fin l.items.length} :
    i ∈ l.shown ↔ l.passes (l.items.get i) = true := by
  unfold shown
  rw [List.mem_mergeSort, List.mem_filter]
  exact and_iff_right (List.mem_finRange i)

/-- What is visible is at the places that show. -/
theorem visible_eq_map_shown : l.visible = l.shown.map l.items.get := by
  have hrows : l.filtered = ((List.finRange l.items.length).filter
      fun i => l.passes (l.items.get i)).map l.items.get := by
    have hitems := congrArg (List.filter l.passes) (List.map_get_finRange l.items)
    rw [List.filter_map] at hitems
    exact hitems.symm
  have hsort := List.map_mergeSort (f := l.items.get) (s := l.mayPrecede)
    (l := (List.finRange l.items.length).filter fun i => l.passes (l.items.get i))
    fun _ _ _ _ => rfl
  rw [visible_eq, hrows]
  exact hsort.symm

/-- Where either of two rows might come first, they stand as in the list. -/
theorem pairwise_shown : l.shown.Pairwise fun i j =>
    l.mayPrecede (l.items.get i) (l.items.get j) = true ∧
      (l.mayPrecede (l.items.get j) (l.items.get i) = true → i < j) := by
  have htrans : ∀ i j k, l.mayPrecede (l.items.get i) (l.items.get j) = true →
      l.mayPrecede (l.items.get j) (l.items.get k) = true →
      l.mayPrecede (l.items.get i) (l.items.get k) = true :=
    fun _ _ _ => l.mayPrecede_trans _ _ _
  have htotal : ∀ i j, (l.mayPrecede (l.items.get i) (l.items.get j)
      || l.mayPrecede (l.items.get j) (l.items.get i)) = true :=
    fun _ _ => l.mayPrecede_total _ _
  exact pairwise_mergeSort_of_pairwise htrans htotal ((List.pairwise_lt_finRange _).filter _)

/-- **The places that show do so as they should.** -/
theorem shows_shown : l.Shows l.shown := by
  have horder := l.pairwise_shown
  constructor
  · exact l.visible_eq_map_shown
  · unfold shown
    exact (List.mergeSort_perm _ _).nodup_iff.2 ((List.nodup_finRange _).filter _)
  · -- an empty query is in every text
    rintro (hnone | hempty) i
    · exact l.mem_shown_iff.2 (l.passes_of_none hnone _)
    · refine l.mem_shown_iff.2 ((l.passes_iff hempty _).2 ⟨_, List.mem_cons_self, ?_⟩)
      exact List.nil_infix
  · intro q hq i
    rw [mem_shown_iff, passes_iff l hq]
  · intro hnone
    have hfree : ∀ a b, l.mayPrecede a b = true := by
      intro a b
      unfold mayPrecede
      rcases hnone with h | h <;> rw [h] <;> rfl
    exact horder.imp fun h => h.2 (hfree _ _)
  · intro hasc
    unfold mayPrecede at horder
    simp only [hasc, Option.getD_some, sortField_get] at horder
    refine horder.imp fun ⟨hle, htie⟩ => ⟨textLe_iff.1 hle, fun heq => htie ?_⟩
    exact textLe_of_eq heq.symm
  · intro hdesc
    unfold mayPrecede at horder
    simp only [hdesc, Option.getD_some, sortField_get] at horder
    refine horder.imp fun ⟨hle, htie⟩ => ⟨textLe_iff.1 hle, fun heq => htie ?_⟩
    exact textLe_of_eq heq

/-- The rows that show are those that show of themselves. -/
theorem visible_visible : { l with items := l.visible }.visible = l.visible := by
  have hpass : l.visible.filter l.passes = l.visible :=
    List.filter_eq_self.2 fun i hi => (l.mem_visible_iff.1 hi).2
  have hsorted : l.visible.Pairwise fun a b => l.mayPrecede a b = true := by
    rw [visible_eq]
    exact List.pairwise_mergeSort l.mayPrecede_trans l.mayPrecede_total _
  calc { l with items := l.visible }.visible
      = (l.visible.filter l.passes).mergeSort l.mayPrecede := visible_eq _
    _ = l.visible := by rw [hpass, List.mergeSort_of_pairwise hsorted]

/-- **The view of a data list.**

The rows that show are those at some places of the list, as `Shows` says: each place at most once, those
that hold the query, sorted by the chosen field if an order is set, ties in their own order both
upwards and downwards.  As a list of their own, under the same settings, they show as they are.  There
is a message just when no row shows, and it tells an empty list from one that is filtered out. -/
theorem visible_spec :
    (∃ shown, l.Shows shown) ∧
    { l with items := l.visible }.visible = l.visible ∧
    l.emptyMessage? l.visible.length =
      if l.visible = [] then
        some (if l.items = [] then "List is empty. Use Orion AI to fill data."
          else "No items match your filter.")
      else none := by
  refine ⟨⟨l.shown, l.shows_shown⟩, l.visible_visible, ?_⟩
  unfold emptyMessage?
  simp only [List.length_eq_zero_iff, List.isEmpty_iff]
  split
  · split <;> rfl
  · rfl

/-- Rows with titles in capital and small letters, two of which are one title, and one without a
value. -/
def mixedRows : List ListItem :=
  [⟨"1", "pear", none, some "b", none⟩, ⟨"2", "Apple", none, none, none⟩,
    ⟨"3", "PEAR", none, some "A", none⟩, ⟨"4", "fig", none, some "a", none⟩]

-- Equal titles stand as they stood, upwards and downwards; the row without a value comes first.
example :
    (visible ⟨mixedRows, none, none, some .asc⟩).map (·.id) = ["2", "4", "1", "3"] ∧
    (visible ⟨mixedRows, none, none, some .desc⟩).map (·.id) = ["1", "3", "4", "2"] ∧
    (visible ⟨mixedRows, none, some .value, some .asc⟩).map (·.id) = ["2", "3", "4", "1"] := by
  cbv

end ListSettings
end PageBuilder
