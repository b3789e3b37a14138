/-
  The view of a data list: which rows it shows, in which order.

  Programs:       `visible`, `emptyMessage?`.
  Specification:  a row shows iff the filter query is empty or its title, subtitle or value holds the
                  query, letter case aside; a sort order other than `none` sorts by the lowercase
                  field, rows with equal fields keeping their order, upwards and downwards alike.
  Crux:           both sort orders are one stable merge sort; the descending one compares the other
                  way round instead of reversing the result.
-/
import PageBuilder.Props.Basic

namespace PageBuilder

/-- What decides which rows of a data list show. -/
structure ListSettings where
  items : List ListItem
  filterQuery : Option String
  sortKey : Option SortKey
  sortOrder : Option SortOrder
deriving DecidableEq, Repr

/-! ## Filtering -/

/-- Whether one text occurs in another. -/
def occursIn (part : List Char) : List Char → Bool
  | [] => part.isEmpty
  | c :: cs => part.isPrefixOf (c :: cs) || occursIn part cs

/-- Whether the lowercase of a text holds a query. -/
def holdsQuery (query : String) (s : String) : Bool :=
  occursIn query.toList (Text.lowercase s).toList

namespace ListItem

/-- Whether a row's title, subtitle or value holds a query. -/
def matchesQuery (query : String) (i : ListItem) : Bool :=
  holdsQuery query i.title || i.subtitle.any (holdsQuery query) || i.value.any (holdsQuery query)

/-- The text a row sorts by; a missing value counts as empty. -/
def sortField (k : SortKey) (i : ListItem) : String :=
  match k with
  | .title => Text.lowercase i.title
  | .value => Text.lowercase (i.value.getD "")

end ListItem

namespace ListSettings

/-- What the props of a data list say. -/
def ofSettings : Settings .dataList → ListSettings
  | ⟨(_, _, items, query, key, order, ()), _, _⟩ => ⟨items, query, key, order⟩

/-- The lowercase query, empty if there is none. -/
def query (l : ListSettings) : String := (l.filterQuery.map Text.lowercase).getD ""

/-- Rows that pass the filter, in their own order. -/
def filtered (l : ListSettings) : List ListItem :=
  l.items.filter fun i => l.query == "" || i.matchesQuery l.query

/-! ## Sorting -/

/-- Texts in order, character by character and then by length. -/
def textLe : List Char → List Char → Bool
  | [], _ => true
  | _ :: _, [] => false
  | a :: s, b :: t => a.toNat < b.toNat || (a.toNat == b.toNat && textLe s t)

/-- Sort by a field, keeping the order of rows whose fields are equal. -/
def sortBy (le : List Char → List Char → Bool) (k : SortKey) (rows : List ListItem) :
    List ListItem :=
  ((rows.map fun i => ((i.sortField k).toList, i)).mergeSort fun a b => le a.1 b.1).map (·.2)

/-- **The view**: the rows that show, in the order in which they show. -/
def visible (l : ListSettings) : List ListItem :=
  match l.sortOrder.getD .none with
  | .none => l.filtered
  | .asc => sortBy textLe (l.sortKey.getD .title) l.filtered
  | .desc => sortBy (fun a b => textLe b a) (l.sortKey.getD .title) l.filtered

/-- The text in place of rows when `shown` of them show. -/
def emptyMessage? (l : ListSettings) (shown : Nat) : Option String :=
  if shown = 0 then
    if l.items.isEmpty then some "List is empty. Use Orion AI to fill data."
    else some "No items match your filter."
  else none

/-! ## Small facts -/

theorem textLe_total (s t : List Char) : (textLe s t || textLe t s) = true := by
  induction s generalizing t with
  | nil => simp [textLe]
  | cons a s ih =>
    cases t with
    | nil => simp [textLe]
    | cons b t =>
      have := ih t
      grind [textLe]

theorem textLe_trans (s t u : List Char) :
    textLe s t = true → textLe t u = true → textLe s u = true := by
  induction s generalizing t u with
  | nil => simp [textLe]
  | cons a s ih =>
    cases t with
    | nil => simp [textLe]
    | cons b t =>
      cases u with
      | nil => simp [textLe]
      | cons c u =>
        have := ih t u
        grind [textLe]

end ListSettings
end PageBuilder
