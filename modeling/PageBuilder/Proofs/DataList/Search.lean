/-
  Literal matches in a data list.

  A row is searched in lowercase, and so is the query.  Since the lowercase of a sigma depends on what
  stands around it, a query that occurs in a row character for character may not be found there.

  Specification:  `finds_literal_iff` — a query is found wherever its sigmas have the form that they
                  have in the query alone; it is found in every row in which it occurs if and only if
                  it is settled.  How the rows are sorted has no part in it.
-/
import PageBuilder.Proofs.DataList.Visible
import PageBuilder.Proofs.Text.Lowercase

namespace PageBuilder.ListSettings

section

variable {items : List ListItem} {i : ListItem} {query : String} {k : Option SortKey}
  {o : Option SortOrder}

/-- A row of the list shows if the lowercase of the query occurs in that of one of its texts. -/
theorem mem_visible_of_infix {text : String} (hi : i ∈ items) (htext : text ∈ i.texts)
    (h : (Text.lowercase query).toList <:+: (Text.lowercase text).toList) :
    i ∈ (mk items (some query) k o).visible :=
  (mem_visible_iff _).2 ⟨hi, (passes_iff _ rfl i).2 ⟨text, htext, h⟩⟩

/-- A row with nothing but a title shows only if the lowercase of the query occurs in that of the
title. -/
theorem infix_of_mem_visible {id text : String}
    (h : ⟨id, text, none, none, none⟩ ∈ (mk items (some query) k o).visible) :
    (Text.lowercase query).toList <:+: (Text.lowercase text).toList := by
  obtain ⟨-, hpasses⟩ := (mem_visible_iff _).1 h
  obtain ⟨t, ht, hoccurs⟩ := (passes_iff _ rfl _).1 hpasses
  obtain rfl : t = text := List.mem_singleton.1 ht
  exact hoccurs

end

/-- **Literal matches in a data list**, whatever the sort key and the order.

A row shows if the query stands in one of its texts, character for character, and every capital sigma
of it has there the form that it has in the query alone.  And of the queries, just the settled ones
show every row in which they stand. -/
theorem finds_literal_iff (query : String) (k : Option SortKey) (o : Option SortOrder) :
    (∀ (items : List ListItem), ∀ i ∈ items, ∀ text ∈ i.texts, ∀ before after : List Char,
      text.toList = before ++ query.toList ++ after →
      Text.readsAlike before.reverse after [] query.toList = true →
      i ∈ (mk items (some query) k o).visible) ∧
    ((∀ (items : List ListItem), ∀ i ∈ items, (∃ text ∈ i.texts, query.toList <:+: text.toList) →
      i ∈ (mk items (some query) k o).visible) ↔ Text.isSettled query = true) := by
  refine ⟨?_, fun hfound => ?_, ?_⟩
  · intro items i hi text htext before after hsplit hreads
    exact mem_visible_of_infix hi htext (Text.infix_lowercase_of_readsAlike hsplit hreads)
  · refine (Text.infix_lowercase_iff query).1 fun text hoccurs => ?_
    -- a list of one row, whose title is that text
    let row : ListItem := ⟨"1", text, none, none, none⟩
    have hshows := hfound [row] row (List.mem_singleton_self row) ⟨text, List.mem_cons_self, hoccurs⟩
    exact infix_of_mem_visible hshows
  · rintro hsettled items i hi ⟨text, htext, hoccurs⟩
    exact mem_visible_of_infix hi htext ((Text.infix_lowercase_iff query).2 hsettled text hoccurs)

/-- A lamp and a light, in a list of Greek words. -/
def lamps : List ListItem :=
  [⟨"1", "ΛΑΜΠΑ", none, some "ΤΟ ΦΩΣ", none⟩, ⟨"2", "ΦΩΣΤΗΡΑΣ", none, none, none⟩]

/-- The word for light is found where it stands as a word; a settled query is found within a word. -/
theorem finds_literal_lamps :
    lamps[0] ∈ lamps ∧ "ΤΟ ΦΩΣ" ∈ lamps[0].texts ∧
    "ΤΟ ΦΩΣ".toList = "ΤΟ ".toList ++ "ΦΩΣ".toList ++ [] ∧
    Text.readsAlike "ΤΟ ".toList.reverse [] [] "ΦΩΣ".toList = true ∧
    lamps[0] ∈ (mk lamps (some "ΦΩΣ") (some .value) (some .desc)).visible ∧
    Text.isSettled "ΩΣΤ" = true ∧ lamps[1] ∈ lamps ∧
    (∃ text ∈ lamps[1].texts, "ΩΣΤ".toList <:+: text.toList) ∧
    lamps[1] ∈ (mk lamps (some "ΩΣΤ") none (some .asc)).visible := by
  have hfirst : lamps[0] ∈ lamps := by decide
  have hsecond : lamps[1] ∈ lamps := by decide
  have htext : "ΤΟ ΦΩΣ" ∈ lamps[0].texts := by decide
  have hsplit : "ΤΟ ΦΩΣ".toList = "ΤΟ ".toList ++ "ΦΩΣ".toList ++ [] := by decide
  -- at the end of the text the sigma is final, as it is in the query
  have hreads : Text.readsAlike "ΤΟ ".toList.reverse [] [] "ΦΩΣ".toList = true := by decide +kernel
  have hsettled : Text.isSettled "ΩΣΤ" = true := by decide +kernel
  have hholds : ∃ text ∈ lamps[1].texts, "ΩΣΤ".toList <:+: text.toList := by decide +kernel
  refine ⟨hfirst, htext, hsplit, hreads, ?_, hsettled, hsecond, hholds, ?_⟩
  · exact (finds_literal_iff "ΦΩΣ" (some .value) (some .desc)).1 lamps _ hfirst _ htext _ _ hsplit
      hreads
  · exact (finds_literal_iff "ΩΣΤ" none (some .asc)).2.2 hsettled lamps _ hsecond hholds

/-- **A literal match can be missed**: the word for light stands in the second row, and that row does
not show. -/
theorem not_finds_literal_lamps :
    ¬ ∀ i ∈ lamps, (∃ text ∈ i.texts, "ΦΩΣ".toList <:+: text.toList) →
      i ∈ (mk lamps (some "ΦΩΣ") none none).visible := by
  decide +kernel

end PageBuilder.ListSettings
