/-
  What the dialects have in common.

  The attributes of an element are spelled differently in each dialect, some are there in one of them
  only, and an empty element is closed in its own way.  An OUTLINE is what is left of a line without
  all that: how deep it is, which elements it opens and closes, their styling classes, and what stands
  between the tags.  An element that closes itself is opened and closed.

  Programs:       `Line.outline`.
  Specification:  `outline_fragment` — line by line, both dialects have the same outline.
  Crux:           `classValues_ofProp` — a prop that is written as an attribute has another name in
                  each dialect, but none becomes or ceases to be the styling classes.
-/
import PageBuilder.Proofs.Export.Block
import PageBuilder.Proofs.Markup.AttributeName

namespace PageBuilder

namespace Markup

/-! ## Outlines -/

/-- What a piece of a line says, attributes other than the styling classes aside. -/
inductive Mark where
  | opened (element : String) (classes : List String)
  | closed (element : String)
  /-- What stands between tags, as it is spelled. -/
  | text (s : String)
deriving DecidableEq, Repr

/-- The value of an attribute that holds the styling classes. -/
def Attribute.classValue? : Attribute → Option String
  | .classes v => some v
  | _ => none

/-- The values of the styling classes among some attributes. -/
def Attribute.classValues (as : List Attribute) : List String := as.filterMap classValue?

/-- The marks of a piece. -/
def Piece.marks (d : Dialect) : Piece → List Mark
  | .opening e as => [.opened e (Attribute.classValues as)]
  | .closing e => [.closed e]
  | .selfClosing e as => [.opened e (Attribute.classValues as), .closed e]
  | p => [.text (p.spelling d)]

/-- Marks without the text of sample code, which is what stands in a `code` element. -/
def Mark.withoutCode : List Mark → List Mark
  | [] => []
  | .opened e cs :: .text s :: ms =>
    if e = "code" then .opened e cs :: withoutCode ms
    else .opened e cs :: .text s :: withoutCode ms
  | m :: ms => m :: withoutCode ms

/-- **The outline** of a line: its depth and its marks, the text of sample code aside. -/
def Line.outline (d : Dialect) (l : Line) : Nat × List Mark :=
  (l.level, Mark.withoutCode (l.pieces.flatMap (Piece.marks d)))

/-- What stands between tags is spelled the same in both dialects. -/
theorem Piece.marks_eq (d e : Dialect) (p : Piece) : p.marks d = p.marks e := by
  cases p <;> rfl

/-- A line has the same outline in both dialects. -/
theorem Line.outline_eq (d e : Dialect) (l : Line) : l.outline d = l.outline e := by
  unfold outline
  rw [funext (Piece.marks_eq d e)]

/-- Lines further in: the depth alone changes. -/
theorem map_outline_deeper (d : Dialect) (k : Nat) (ls : List Line) :
    (ls.map (Line.deeper k)).map (Line.outline d)
      = (ls.map (Line.outline d)).map fun o => (o.1 + k, o.2) := by
  rw [List.map_map, List.map_map]
  rfl

/-! ## Styling classes -/

namespace Attribute

theorem classValues_append (as bs : List Attribute) :
    classValues (as ++ bs) = classValues as ++ classValues bs := List.filterMap_append

/-- A value is never the styling classes. -/
theorem classValue?_ofValue (d : Dialect) (name : String) (v : Json) :
    (ofValue d name v).classValue? = none := by
  cases v <;> rfl

/-- The styling classes that a prop gives an element are the same in every dialect. -/
theorem classValues_ofProp (d : Dialect) (skip : List String) (e : String × Json) :
    classValues (ofProp d skip e) = classValues (ofProp .react skip e) := by
  obtain ⟨key, v⟩ := e
  rw [ofProp_eq, ofProp_eq]
  split
  · rfl
  · cases v with
    | string s =>
      dsimp only
      split <;> rfl
    | _ => rfl

/-- The two dialects have different names for classes, and the same values. -/
theorem classValues_ofProps (d : Dialect) (skip : List String) (fs : Json.Fields) :
    classValues (ofProps d skip fs) = classValues (ofProps .react skip fs) := by
  unfold ofProps classValues
  rw [List.filterMap_flatMap, List.filterMap_flatMap]
  exact List.flatMap_congr fun e _ => classValues_ofProp d skip e

end Attribute
end Markup

namespace Export

open Markup

/-! ## Components -/

/-- An empty element is opened and closed, however a dialect closes it. -/
theorem outline_emptyElement (d e : Dialect) (level : Nat) (tag : String) (as : List Attribute) :
    (emptyElement d level tag as).outline e
      = (level, [.opened tag (Attribute.classValues as), .closed tag]) := by
  cases d <;> rfl

theorem outline_voidElement (e : Dialect) (level : Nat) (tag : String) (as : List Attribute) :
    (voidElement level tag as).outline e
      = (level, [.opened tag (Attribute.classValues as), .closed tag]) := rfl

theorem outline_openLine (e : Dialect) (level : Nat) (tag : String) (as : List Attribute) :
    (openLine level tag as).outline e = (level, [.opened tag (Attribute.classValues as)]) := rfl

theorem outline_textElement (e : Dialect) (level : Nat) (tag : String) (as : List Attribute)
    (s : String) :
    (textElement level tag as s).outline e = (level, Mark.withoutCode
      [.opened tag (Attribute.classValues as), .text (escapeText s), .closed tag]) := rfl

/-- The width of a bar is no part of the outline. -/
theorem outline_progressBar (d e : Dialect) (value : Option Binary64) :
    (progressBar d value).outline e
      = (1, [.opened "div" (Attribute.classValues (styled [Look.progressBar])), .closed "div"]) := by
  have hstyle : ∀ a : Attribute, a.classValue? = none →
      Attribute.classValues (styled [Look.progressBar] ++ [a])
        = Attribute.classValues (styled [Look.progressBar]) := by
    intro a ha
    rw [Attribute.classValues_append]
    exact (congrArg _ (List.filterMap_cons_none ha)).trans (List.append_nil _)
  cases d with
  | react => exact (outline_emptyElement ..).trans (by rw [hstyle _ rfl])
  | vue => exact (outline_emptyElement ..).trans (by rw [hstyle _ rfl])

/-- A line of sample code: the code has no part in the outline. -/
theorem outline_sample (e : Dialect) (as : List Attribute) {p : Piece} {s : String}
    (h : p.marks e = [.text s]) :
    Line.outline e ⟨0, [.opening "pre" as, .opening "code" [], p, .closing "code", .closing "pre"]⟩
      = (0, [.opened "pre" (Attribute.classValues as), .opened "code" [], .closed "code",
        .closed "pre"]) := by
  rw [Line.outline, List.flatMap_cons, List.flatMap_cons, List.flatMap_cons, h]
  rfl

theorem classValues_slider (d : Dialect) (min max value : Option Binary64) (look : List Attribute) :
    Attribute.classValues ([.plain "type" "range", sliderValue d "min" min 0,
        sliderValue d "max" max 100, sliderValue d (Attribute.keyIn d "defaultValue") value 50] ++ look)
      = Attribute.classValues look := by
  rw [Attribute.classValues_append]
  unfold sliderValue Attribute.classValues
  simp only [List.filterMap_cons, Attribute.classValue?_ofValue]
  rfl

/-- **The outlines of a component** other than a data list. -/
theorem outline_componentLines (id : String) {k : Kind} (h : k ≠ .dataList) (s : Settings k) :
    (componentLines .react id k s).map (Line.outline .react)
      = (componentLines .vue id k s).map (Line.outline .react) := by
  -- the kinds that are written differently, one by one; the others are the same text
  cases k with
  | dataList => exact absurd rfl h
  | input =>
    rw [componentLines, componentLines, List.map_singleton, List.map_singleton,
      outline_voidElement, outline_voidElement, Attribute.classValues_ofProps .vue]
  | image =>
    rw [componentLines, componentLines, List.map_singleton, List.map_singleton,
      outline_voidElement, outline_voidElement, Attribute.classValues_ofProps .vue]
  | textarea =>
    rw [componentLines, componentLines, List.map_singleton, List.map_singleton,
      outline_emptyElement, outline_emptyElement, Attribute.classValues_ofProps .vue]
  | slider =>
    obtain ⟨⟨min, max, value, ⟨⟩⟩, cls, others⟩ := s
    rw [componentLines, componentLines, List.map_singleton, List.map_singleton,
      outline_voidElement, outline_voidElement, classValues_slider, classValues_slider]
  | progress =>
    obtain ⟨⟨value, ⟨⟩⟩, cls, others⟩ := s
    simp only [componentLines, List.map_cons, outline_progressBar]
  | spacer =>
    obtain ⟨⟨height, ⟨⟩⟩, cls, others⟩ := s
    rw [componentLines, componentLines, List.map_singleton, List.map_singleton,
      outline_emptyElement, outline_emptyElement]
  | video =>
    obtain ⟨⟨src, ⟨⟩⟩, cls, others⟩ := s
    rw [componentLines, componentLines, List.map_singleton, List.map_singleton,
      outline_emptyElement, outline_emptyElement]
  | codeBlock =>
    obtain ⟨⟨code, ⟨⟩⟩, cls, others⟩ := s
    have hlook : Attribute.classValues (styled [Look.code, cls.getD ""] ++ [.flag "v-pre"])
        = Attribute.classValues (styled [Look.code, cls.getD ""]) := by
      rw [Attribute.classValues_append]
      exact List.append_nil _
    rw [componentLines, componentLines, List.map_singleton, List.map_singleton,
      outline_sample _ _ rfl, outline_sample _ _ rfl, hlook]
  | _ => rfl

/-! ## Trees -/

/-- A placeholder has its classes in either dialect. -/
theorem classValues_placeholder (d : Dialect) (t : String) (fs : Json.Fields) :
    Attribute.classValues (placeholderAttributes d t fs)
      = Attribute.classValues (placeholderAttributes .react t fs) := by
  have hparts : ∀ d : Dialect, Attribute.classValues (placeholderAttributes d t fs)
      = Attribute.classValues (Attribute.ofProps d ["label", "title", "className"] fs)
        ++ Attribute.classValues
          (styled [Look.unknown, ((Props.unknown t fs).className?).getD ""]) := fun d =>
    (List.filterMap_cons_none rfl).trans (Attribute.classValues_append _ _)
  rw [hparts, hparts, Attribute.classValues_ofProps d]

/-- **The outlines of a block** whose inner lines have the same outlines in both dialects. -/
theorem outline_block (id : String) {p : Props} (h : p.kind? ≠ some .dataList)
    {inner inner' : List Line}
    (hinner : inner.map (Line.outline .react) = inner'.map (Line.outline .react)) :
    (block .react id p inner).map (Line.outline .react)
      = (block .vue id p inner').map (Line.outline .react) := by
  -- the two outlines are empty together
  have hempty : inner.isEmpty = inner'.isEmpty := by
    rw [← List.isEmpty_map, hinner, List.isEmpty_map]
  have hdeeper : (inner.map (Line.deeper 1)).map (Line.outline .react)
      = (inner'.map (Line.deeper 1)).map (Line.outline .react) := by
    rw [map_outline_deeper, map_outline_deeper, hinner]
  cases p with
  | known k s =>
    unfold block
    dsimp only
    rw [hempty]
    split
    · split
      · rw [List.map_singleton, List.map_singleton, outline_emptyElement, outline_emptyElement]
      · rw [List.map_cons, List.map_cons, List.map_append, List.map_append, hdeeper]
    · exact outline_componentLines id (fun hk => h (congrArg some hk)) s
  | unknown t fs =>
    have hclasses := classValues_placeholder .vue t fs
    unfold block
    dsimp only
    rw [hempty]
    split
    · rw [List.map_singleton, List.map_singleton, outline_textElement, outline_textElement, hclasses]
    · rw [List.map_cons, List.map_cons, List.map_cons, List.map_cons, List.map_append,
        List.map_append, hdeeper, outline_openLine, outline_openLine, hclasses]

/-- **The outlines of a tree** without data lists. -/
theorem outline_lines {n : Node} (h : ∀ m ∈ n.nodes, m.kind? ≠ some .dataList) :
    (lines .react n).map (Line.outline .react) = (lines .vue n).map (Line.outline .react) := by
  induction n using Node.induct with
  | step n ih =>
    rw [Node.nodes_cons, List.forall_mem_cons, List.forall_mem_flatMap] at h
    rw [lines_eq, lines_eq]
    refine outline_block n.id h.1 ?_
    rw [List.map_flatMap, List.map_flatMap]
    exact List.flatMap_congr fun c hc => ih c hc (h.2 c hc)

/-- **What the dialects have in common.**

A tree without data lists is exported as equally many lines in both dialects, and line by line they
have the same outline: as far in, with the same elements opened and closed, in the same order and with
the same styling classes, and with the same text between the tags, that of sample code aside. -/
theorem outline_fragment {n : Node} (h : ∀ m ∈ n.nodes, m.kind? ≠ some .dataList)
    (width level : Nat) :
    let react := fragment .react level n
    let vue := fragment .vue level n
    fragmentText .react width level n = write .react width react ∧
    fragmentText .vue width level n = write .vue width vue ∧
    react.length = vue.length ∧
    react.map (Line.outline .react) = vue.map (Line.outline .vue) := by
  have houtline : (fragment .react level n).map (Line.outline .react)
      = (fragment .vue level n).map (Line.outline .vue) := by
    have hline : Line.outline .vue = Line.outline .react := funext (Line.outline_eq .vue .react)
    unfold fragment
    rw [hline, map_outline_deeper, map_outline_deeper, outline_lines h]
  have hlength := congrArg List.length houtline
  rw [List.length_map, List.length_map] at hlength
  exact ⟨rfl, rfl, hlength, houtline⟩

/-- A form with a box to type in, some sample code, and a node of a type that names no kind. -/
def formPage : Node :=
  ⟨"form", .blank (some .container), some [
    .make "note" (.known .textarea ⟨(none, some 3, some "Hi", ()), some "w-full", []⟩),
    .make "sample" (.known .codeBlock ⟨(some "a < b", ()), none, []⟩),
    ⟨"hologram", .unknown "Hologram" [("className", .string "p-4")],
      some [.make "gap" (.blank (some .spacer))], {}⟩], {}⟩

/-- The form is written differently in the two dialects, and has the same outline in both. -/
theorem outline_fragment_formPage :
    (∀ m ∈ formPage.nodes, m.kind? ≠ some .dataList) ∧
    fragment .react 1 formPage ≠ fragment .vue 1 formPage ∧
    (fragment .react 1 formPage).map (Line.outline .react)
      = (fragment .vue 1 formPage).map (Line.outline .vue) := by
  have hlists : ∀ m ∈ formPage.nodes, m.kind? ≠ some .dataList := by decide +kernel
  refine ⟨hlists, ?_, (outline_fragment hlists 2 1).2.2.2⟩
  decide +kernel

end Export
end PageBuilder
