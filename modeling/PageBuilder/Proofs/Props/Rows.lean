/-
  Rows that are written over those of a data list.

  Programs:       `merged?` of an object that holds rows and nothing else, `same` of what comes out.
  Specification:  `merged?_rows` — whatever the rows, they are accepted, and every other prop stays;
                  `same_withRows` — the props are the same as before just if the rows are.
  Crux:           a data list always writes its rows, if only an empty list, so other rows go to the
                  place of these in the object: it is the object that is written of the list with the
                  other rows, and that one is known to be read back.
-/
import PageBuilder.Proofs.Props.Merge

namespace PageBuilder

namespace Settings

/-- The rows of a data list. -/
def rows (s : Settings .dataList) : List ListItem :=
  let (_, _, rows, _) := s.cells
  rows

/-- **A data list with other rows**, all else as it is. -/
def withRows (s : Settings .dataList) (rows : List ListItem) : Settings .dataList :=
  let (title, description, _, rest) := s.cells
  { s with cells := (title, description, rows, rest) }

theorem withRows_self (s : Settings .dataList) : s.withRows s.rows = s := rfl

/-- The field of the rows. -/
def rowsField (rows : List ListItem) : String × Json := ("items", .array (rows.map ListItem.toJson))

/-- **The written object** has the rows behind the title and the description, where these are set. -/
theorem toFields_withRows (s : Settings .dataList) : ∃ front behind,
    "items" ∉ Entries.keys front ∧
      ∀ rows, (s.withRows rows).toFields = front ++ rowsField rows :: behind := by
  obtain ⟨⟨title, description, old, rest⟩, className, others⟩ := s
  refine ⟨Record.writeField ⟨"title", .text⟩ title
    ++ Record.writeField ⟨"description", .text⟩ description, ?_, ?_, fun rows => ?_⟩
  · exact Record.write _ rest ++ Record.writeField Field.className className ++ others
  · -- in front of the rows stand the title and the description
    intro hmem
    obtain ⟨e, he, hkey⟩ := List.mem_map.1 hmem
    rcases List.mem_append.1 he with he | he
    · have htitle := Record.key_of_mem_writeField he
      rw [hkey] at htitle
      exact absurd htitle (by decide)
    · have hdescription := Record.key_of_mem_writeField he
      rw [hkey] at hdescription
      exact absurd hdescription (by decide)
  · simp only [withRows, toFields, Record.write, List.append_assoc]
    rfl

/-- **Other rows are written in place.** -/
theorem put_toFields (s : Settings .dataList) (rows : List ListItem) :
    Entries.put s.toFields "items" (rowsField rows).2 = (s.withRows rows).toFields := by
  obtain ⟨front, behind, hfront, hwritten⟩ := toFields_withRows s
  have hself : s.toFields = front ++ rowsField s.rows :: behind := hwritten s.rows
  rw [hself, hwritten rows, Entries.put_append_of_notMem hfront]
  rfl

/-- Rows are always stable. -/
theorem Stable.withRows {s : Settings .dataList} (hs : s.Stable) (rows : List ListItem) :
    (s.withRows rows).Stable := ⟨hs.cells, hs.others⟩

end Settings

namespace Props

/-- Props of a kind are settings of it. -/
theorem exists_settings {p : Props} {k : Kind} (h : p.kind? = some k) : ∃ t, p = known k t := by
  cases p with
  | known l t =>
    obtain rfl := Option.some.inj h
    exact ⟨t, rfl⟩
  | unknown name fields => nomatch h

variable {s : Settings .dataList}

/-- **Every list of rows is accepted**, and takes the place of the rows there are. -/
theorem merged?_rows (hs : (known .dataList s).Sound) (rows : List ListItem) :
    (known .dataList s).merged? [Settings.rowsField rows]
      = .ok (known .dataList (s.withRows rows)) := by
  refine merged?_eq_ok_iff.2 ?_
  show (Settings.parse? .dataList
    (Entries.put s.toFields "items" (Settings.rowsField rows).2)).map _ = _
  rw [Settings.put_toFields, Settings.parse?_toFields (hs.stable.withRows rows)]
  rfl

/-- **When nothing changes**: the rows are the ones there are. -/
theorem same_withRows (hs : (known .dataList s).Sound) (rows : List ListItem) :
    (known .dataList (s.withRows rows)).same (known .dataList s) = true ↔ rows = s.rows := by
  show (s.withRows rows).same s = true ↔ rows = s.rows
  constructor
  · intro h
    obtain ⟨⟨title, description, old, rest⟩, className, others⟩ := s
    simp only [Settings.same, Settings.withRows, Record.same, Format.same, Bool.and_eq_true] at h
    obtain ⟨⟨⟨-, -, hrows, -⟩, -⟩, -⟩ := h
    exact eq_of_beq hrows
  · rintro rfl
    rw [Settings.withRows_self]
    exact Settings.same_of_get? hs.parses hs.parses hs.tidy (Json.holdProper_iff.1 hs.proper)
      hs.nodup fun _ => rfl

end Props
end PageBuilder
