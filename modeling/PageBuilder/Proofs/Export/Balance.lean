/-
  Exported markup is balanced.

  Program:        `Export.fragment`.
  Specification:  `readLines?_fragment` — read line by line, the export of a tree closes all that it
                  opens, each construct by a line of its name at its level, with everything between
                  them further in.
  Crux:           `nested_componentLines` — one case per kind: an element stands on one line, or its
                  lines stand between the two lines that open and close it, one level further in.
-/
import PageBuilder.Proofs.Export.Block
import PageBuilder.Proofs.Markup.Nesting

namespace PageBuilder.Export

open Markup

variable {d : Dialect} {level : Nat} {e : String} {as : List Attribute}

/-! ## Lines of one element -/

theorem isContained_textElement (s : String) : (textElement level e as s).isContained = true := by
  simp [Line.isContained, textElement, Piece.read?, Piece.opens?, Piece.closes?]

theorem isContained_voidElement : (voidElement level e as).isContained = true := rfl

theorem isContained_emptyElement : (emptyElement d level e as).isContained = true := by
  cases d with
  | react => rfl
  | vue => simp [Line.isContained, emptyElement, Piece.read?, Piece.opens?, Piece.closes?]

theorem level_emptyElement : (emptyElement d level e as).level = level := by
  cases d <;> rfl

theorem nested_textElement (s : String) : Nested level [textElement level e as s] :=
  .contained (isContained_textElement s) (Nat.le_refl _) .nil

theorem nested_voidElement : Nested level [voidElement level e as] :=
  .contained isContained_voidElement (Nat.le_refl _) .nil

theorem nested_emptyElement : Nested level [emptyElement d level e as] :=
  .contained isContained_emptyElement (Nat.le_of_eq level_emptyElement.symm) .nil

/-- An element around lines that nest further in. -/
theorem nested_element (e : String) (as : List Attribute) {inner : List Line}
    (h : Nested (level + 1) inner) :
    Nested level (openLine level e as :: (inner ++ [closeLine level e])) :=
  .around rfl rfl (Nat.le_refl _) h .nil

/-! ## Components -/

theorem nested_optionalLine (s : Option String) : Nested 1 (optionalLine e as s) := by
  cases s with
  | none => exact .nil
  | some s => exact nested_textElement s

/-- The steps of a breadcrumb, with separators between them. -/
theorem nested_breadcrumbSteps : ∀ ss : List String, Nested 2 (breadcrumbSteps ss)
  | [] => .nil
  | [s] => nested_textElement s
  | s :: t :: ss =>
    .contained (isContained_textElement s) (Nat.le_refl _) (nested_breadcrumbSteps (t :: ss))

/-- One element for each text. -/
theorem nested_texts (level : Nat) (e : String) (as : List Attribute) (ss : List String) :
    Nested level (ss.map (textElement level e as)) := by
  refine .of_contained fun l hl => ?_
  obtain ⟨s, -, rfl⟩ := List.mem_map.1 hl
  exact ⟨isContained_textElement s, Nat.le_refl _⟩

theorem nested_tableRow (cell : String) (row : List String) : Nested 2 (tableRow cell row) :=
  nested_element "tr" [] (nested_texts 3 cell [] row)

/-- A label with a choice in it, for each option. -/
theorem nested_radioChoice (id : String) (options : List String) :
    Nested 1 (options.map (radioChoice id)) := by
  refine .of_contained fun l hl => ?_
  obtain ⟨s, -, rfl⟩ := List.mem_map.1 hl
  exact ⟨rfl, Nat.le_refl _⟩

/-- A bar is one line. -/
theorem nested_progressBar (d : Dialect) (value : Option Binary64) :
    Nested 1 [progressBar d value] := by
  cases d with
  | react =>
    show Nested 1 [emptyElement .react 1 "div" _]
    exact nested_emptyElement
  | vue =>
    show Nested 1 [emptyElement .vue 1 "div" _]
    exact nested_emptyElement

/-- The rows of a list: markup inside an expression in one dialect, a repeated element in the other.
-/
theorem nested_repeatedRows (d : Dialect) (items : List ListItem) :
    Nested 1 (repeatedRows d items) := by
  -- the two cells of a row
  have hcells : ∀ (level : Nat) (as : List Attribute) (title value : String), Nested level
      [⟨level, [.opening "span" [], .code title, .closing "span"]⟩,
        ⟨level, [.opening "span" as, .code value, .closing "span"]⟩] := fun level as title value =>
    .contained rfl (Nat.le_refl _) (.contained rfl (Nat.le_refl _) .nil)
  cases d with
  | react =>
    show Nested 1 (⟨1, [.repeatOpening _]⟩
      :: ((openLine 2 "div" _ :: ([_, _] ++ [closeLine 2 "div"])) ++ [⟨1, [.repeatClosing]⟩]))
    exact .around rfl rfl (Nat.le_refl _) (nested_element "div" _ (hcells 3 _ _ _)) .nil
  | vue =>
    show Nested 1 (openLine 1 "div" _ :: ([_, _] ++ [closeLine 1 "div"]))
    exact nested_element "div" _ (hcells 2 _ _ _)

theorem nested_tickBox (look : String) (role : List Attribute) (cls : String)
    (label : Option String) : Nested 0 (tickBox look role cls label) :=
  nested_element "label" _ (nested_voidElement.append (nested_textElement _))

/-- **The lines of a component** nest. -/
theorem nested_componentLines (d : Dialect) (id : String) (k : Kind) (s : Settings k) :
    Nested 0 (componentLines d id k s) := by
  -- one case for each kind, as it is written; boxes write nothing here
  cases k with
  | container => exact .nil
  | card => exact .nil
  | button => exact nested_textElement _
  | dataList =>
    obtain ⟨⟨title, description, items, query, key, order, ⟨⟩⟩, cls, others⟩ := s
    exact nested_element "div" _ ((nested_textElement _).append (nested_repeatedRows d items))
  | badge => exact nested_textElement _
  | text => exact nested_textElement _
  | input => exact nested_voidElement
  | textarea => exact nested_emptyElement
  | image => exact nested_voidElement
  | divider => exact nested_voidElement
  | avatar =>
    obtain ⟨⟨src, alt, initials, ⟨⟩⟩, cls, others⟩ := s
    rw [componentLines]
    split
    · exact nested_voidElement
    · exact nested_textElement _
  | toggle => exact nested_tickBox ..
  | checkbox => exact nested_tickBox ..
  | slider => exact nested_voidElement
  | progress =>
    obtain ⟨⟨value, ⟨⟩⟩, cls, others⟩ := s
    exact nested_element "div" _ (nested_progressBar d value)
  | alert => exact nested_element "div" _ ((nested_optionalLine _).append (nested_optionalLine _))
  | select => exact nested_element "select" _ (nested_texts 1 "option" [] _)
  | spacer => exact nested_emptyElement
  | rating => exact nested_textElement _
  | radioGroup => exact nested_element "div" _ (nested_radioChoice id _)
  | breadcrumb =>
    obtain ⟨⟨items, ⟨⟩⟩, cls, others⟩ := s
    have hlist := nested_element "ol" (styled [Look.breadcrumb])
      (nested_breadcrumbSteps (items.getD []))
    have hnav := nested_element "nav" (.plain "aria-label" "Breadcrumb" :: styled [cls.getD ""]) hlist
    rw [List.cons_append, List.append_assoc] at hnav
    exact hnav
  | tag => exact nested_textElement _
  | statistic =>
    exact nested_element "div" _
      ((nested_textElement _).append ((nested_textElement _).append (nested_optionalLine _)))
  | quote => exact nested_element "blockquote" _ ((nested_textElement _).append (nested_optionalLine _))
  | video => exact nested_emptyElement
  | map => exact nested_textElement _
  | table =>
    obtain ⟨⟨headers, rows, ⟨⟩⟩, cls, others⟩ := s
    have hhead := nested_element "thead" [] (nested_tableRow "th" (headers.getD []))
    have hbody := nested_element "tbody" []
      (Nested.flatMap fun row (_ : row ∈ rows.getD []) => nested_tableRow "td" row)
    have htable := nested_element "table" (styled [Look.table, cls.getD ""]) (hhead.append hbody)
    simpa only [componentLines, List.append_assoc, List.cons_append, List.nil_append] using htable
  | codeBlock => cases d <;> exact .contained rfl (Nat.le_refl _) .nil

/-! ## Trees -/

/-- **The block of a node** nests if the lines of its children do. -/
theorem nested_block (d : Dialect) (id : String) (p : Props) {inner : List Line}
    (h : Nested 0 inner) : Nested 0 (block d id p inner) := by
  -- what is inside stands one level further in
  have hdeeper : Nested 1 (inner.map (Line.deeper 1)) := h.deeper 1
  cases p with
  | known k s =>
    unfold block
    dsimp only
    split
    · split
      · exact nested_emptyElement
      · exact nested_element "div" _ hdeeper
    · exact nested_componentLines d id k s
  | unknown t fs =>
    unfold block
    dsimp only
    split
    · exact nested_textElement _
    · exact nested_element "div" _ ((nested_textElement _).append hdeeper)

/-- The lines of a tree nest. -/
theorem nested_lines (d : Dialect) (n : Node) : Nested 0 (lines d n) := by
  induction n using Node.induct with
  | step n ih =>
    rw [lines_eq]
    exact nested_block d n.id n.props (.flatMap ih)

theorem nested_fragment (d : Dialect) (level : Nat) (n : Node) :
    Nested level (fragment d level n) := by
  have hdeeper := (nested_lines d n).deeper level
  rw [Nat.zero_add] at hdeeper
  exact hdeeper

/-- **Exported markup is balanced**, in both dialects and from any level on.

Every line closes all that it opens, or opens one construct, or closes the one that was opened last,
by its name and at its level; every line in between is further in; and nothing is open at the end. -/
theorem readLines?_fragment (d : Dialect) (level : Nat) (n : Node) :
    readLines? [] (fragment d level n) = some [] :=
  readLines?_of_nested (nested_fragment d level n) nofun

end PageBuilder.Export
