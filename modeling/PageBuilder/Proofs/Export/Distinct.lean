/-
  Elements that carry an attribute twice.

  A single-file component does not compile with an element that has two attributes of one name, bound or
  not; in a function component the last one wins.  The names come from three sides: an element's own
  attributes, its styling classes, and the props that are written as they come.

  Programs:       `Distinct` — no two attributes of an element have one name;
                  `Props.Unambiguous` — no two props of a node are written under one name, and none
                  under a name that its element has anyway.
  Specification:  `distinct_fragment_iff` — an export has distinct names everywhere just when the
                  props of every node of the tree are unambiguous.
  Crux:           `allDistinct_block_iff` — one block at a time: only three kinds and the nodes
                  of unrecognised type write props as they come, and all other names are fixed.
-/
import PageBuilder.Proofs.Export.Printed
import PageBuilder.Proofs.Markup.AttributeName
import PageBuilder.Proofs.Node.Tidy

namespace PageBuilder

namespace Markup

/-! ## Elements -/

/-- The attributes of the element that a piece opens. -/
def Piece.attributes? : Piece → Option (List Attribute)
  | .opening _ as | .selfClosing _ as => some as
  | _ => none

/-- The attributes of each element that some lines open. -/
def elements (ls : List Line) : List (List Attribute) :=
  ls.flatMap fun l => l.pieces.filterMap Piece.attributes?

/-! ## Names -/

namespace Attribute

/-- A name without the colon that binds it. -/
def unbound (name : String) : String :=
  match name.toList with
  | ':' :: cs => String.ofList cs
  | _ => name

/-- A name, bound or not. -/
def bare (d : Dialect) (name : String) : String :=
  match d with
  | .react => name
  | .vue => unbound name

/-- **No two attributes have one name**, bound or not. -/
def Distinct (d : Dialect) (as : List Attribute) : Prop := (as.map fun a => bare d (a.name d)).Nodup

instance (d : Dialect) (as : List Attribute) : Decidable (Distinct d as) :=
  inferInstanceAs (Decidable (as.map fun a => bare d (a.name d)).Nodup)

theorem unbound_colon (name : String) : unbound (":" ++ name) = name := by
  unfold unbound
  rw [String.toList_append]
  exact String.ofList_toList

/-- **Names that stay apart**: none holds an equals sign, and no two are the same. -/
def apart (d : Dialect) (names : List String) : Bool :=
  names.all (fun n => !n.toList.contains '=') && decide (names.map (bare d)).Nodup

theorem apart_of_sublist {d : Dialect} {names others : List String} (h : names.Sublist others)
    (hothers : apart d others = true) : apart d names = true := by
  obtain ⟨hall, hdistinct⟩ := Bool.and_eq_true_iff.1 hothers
  refine Bool.and_eq_true_iff.2 ⟨List.all_eq_true.2 fun a ha => ?_, decide_eq_true ?_⟩
  · exact List.all_eq_true.1 hall a (h.subset ha)
  · exact (of_decide_eq_true hdistinct).sublist (h.map _)

/-- Attributes that are given names apart have distinct names. -/
theorem distinct_of_apart {d : Dialect} {as : List Attribute} (names : List String)
    (hnames : as.map (given d) = names) (h : apart d names = true) : Distinct d as := by
  subst hnames
  obtain ⟨hall, hdistinct⟩ := Bool.and_eq_true_iff.1 h
  have hgiven : (as.map fun a => bare d (a.name d)) = (as.map (given d)).map (bare d) := by
    rw [List.map_map]
    refine List.map_congr_left fun a ha => ?_
    have hname : a.name d = a.given d :=
      name_eq_given (by simpa using List.all_eq_true.1 hall _ (List.mem_map_of_mem ha))
    rw [hname]
    rfl
  unfold Distinct
  rw [hgiven]
  exact of_decide_eq_true hdistinct

/-! ## Props as they come -/

/-- The name under which a prop is written, bound or not. -/
def spelled (d : Dialect) (e : String × Json) : String :=
  match e.2 with
  | .string _ => if e.1 = "className" then classKey d else bare d (keyIn d e.1)
  | _ => keyIn d e.1

/-- Whether a prop is to be seen: it is written, and is no blank text of classes. -/
def isSeen (skip : List String) (e : String × Json) : Bool :=
  isWritten skip e.1 && !(e.1 == "className" && e.2.string?.any fun s => ClassList.join [s] == "")

/-- **The names of some props** that are written, bound or not. -/
def spelledNames (d : Dialect) (skip : List String) (fs : Json.Fields) : List String :=
  (fs.filter (isSeen skip)).map (spelled d)

theorem bare_classKey (d : Dialect) : bare d (classKey d) = classKey d := by
  cases d <;> rfl

/-- What binds a name is no part of it. -/
theorem bare_given_bound (d : Dialect) (name c : String) : bare d ((bound name c).given d) = name := by
  cases d with
  | react => rfl
  | vue => exact unbound_colon name

/-- The name of one prop, if it is to be seen. -/
theorem names_ofProp (d : Dialect) (skip : List String) (e : String × Json) :
    ((ofProp d skip e).map fun a => bare d (a.name d))
      = if isSeen skip e then [spelled d e] else [] := by
  have hgiven : ((ofProp d skip e).map fun a => bare d (a.name d))
      = (ofProp d skip e).map fun a => bare d (a.given d) :=
    List.map_congr_left fun a ha => by rw [name_of_mem_ofProp ha]
  rw [hgiven]
  obtain ⟨key, v⟩ := e
  unfold isSeen spelled
  -- written or not, a string or not, and of strings those of classes by themselves
  cases hwritten : isWritten skip key with
  | false =>
    rw [ofProp_of_not_isWritten hwritten]
    rfl
  | true =>
    cases v with
    | string s =>
      rw [ofProp_string hwritten]
      by_cases hkey : key = "className"
      · cases hblank : ClassList.join [s] == "" <;>
          simp [hkey, ofClasses, hblank, Json.string?, given, bare_classKey]
      · simp [hkey, given]
    | null | bool _ | number _ | array _ | object _ =>
      rw [ofProp_of_string?_eq_none hwritten d rfl]
      simp [bare_given_bound, Json.string?]

/-- The names of some props, without their colons. -/
theorem names_ofProps (d : Dialect) (skip : List String) (fs : Json.Fields) :
    ((ofProps d skip fs).map fun a => bare d (a.name d)) = spelledNames d skip fs := by
  unfold ofProps spelledNames
  induction fs with
  | nil => rfl
  | cons e fs ih =>
    rw [List.flatMap_cons, List.map_append, ih, names_ofProp, List.filter_cons]
    split <;> rfl

end Attribute
end Markup

namespace Text

/-! ## Words -/

/-- The words of a text hold all its characters but the blanks. -/
theorem flatten_wordsFrom (cs : List Char) : ∀ word,
    (wordsFrom word cs).flatten = word.reverse ++ cs.filter fun c => !isBlank c := by
  induction cs with
  | nil =>
    intro word
    cases word <;> simp [wordsFrom]
  | cons c cs ih =>
    intro word
    rw [wordsFrom]
    cases hc : isBlank c <;> cases word <;> simp [ih, hc]

/-- A character of a word is in the line. -/
theorem mem_intercalate {c : Char} (mark : List Char) : ∀ {ws : List (List Char)} {w : List Char},
    w ∈ ws → c ∈ w → c ∈ mark.intercalate ws
  | [v], w, hw, hc => by
    rw [List.intercalate_singleton]
    rwa [List.mem_singleton.1 hw] at hc
  | v :: u :: ws, w, hw, hc => by
    rw [List.intercalate_cons_cons, List.mem_append, List.mem_append]
    rcases List.mem_cons.1 hw with rfl | hw
    · exact .inl (.inl hc)
    · exact .inr (mem_intercalate mark hw hc)

end Text

namespace ClassList

/-- A character that is not blank stays when classes are joined. -/
theorem mem_join {c : Char} (hc : Text.isBlank c = false) {parts : List String} {s : String}
    (hs : s ∈ parts) (hmem : c ∈ s.toList) : c ∈ (join parts).toList := by
  obtain ⟨w, hw, hcw⟩ : ∃ w ∈ Text.wordsFrom [] s.toList, c ∈ w := by
    rw [← List.mem_flatten, Text.flatten_wordsFrom]
    simp [hmem, hc]
  have hword : String.ofList w ∈ parts.flatMap Text.words :=
    List.mem_flatMap.2 ⟨s, hs, List.mem_map_of_mem hw⟩
  unfold join Text.joinWords
  rw [String.toList_intercalate]
  exact Text.mem_intercalate _ (List.mem_map_of_mem hword) (by rwa [String.toList_ofList])

end ClassList

namespace Export

open Markup

variable {d : Dialect}

/-! ## Lines -/

/-- **No element of some lines has two attributes of one name.** -/
def AllDistinct (d : Dialect) (ls : List Line) : Prop := ∀ as ∈ elements ls, Attribute.Distinct d as

instance (d : Dialect) (ls : List Line) : Decidable (AllDistinct d ls) :=
  inferInstanceAs (Decidable (∀ as ∈ elements ls, Attribute.Distinct d as))

section Lines

variable {level : Nat} {e : String} {as : List Attribute} {ls ms : List Line}

@[simp] theorem allDistinct_nil : AllDistinct d [] := nofun

@[simp] theorem allDistinct_append :
    AllDistinct d (ls ++ ms) ↔ AllDistinct d ls ∧ AllDistinct d ms := by
  unfold AllDistinct elements
  rw [List.flatMap_append, List.forall_mem_append]

@[simp] theorem allDistinct_flatMap {α : Type} {xs : List α} {f : α → List Line} :
    AllDistinct d (xs.flatMap f) ↔ ∀ x ∈ xs, AllDistinct d (f x) := by
  unfold AllDistinct elements
  rw [List.flatMap_assoc, List.forall_mem_flatMap]

theorem allDistinct_map {α : Type} {xs : List α} {f : α → Line} :
    AllDistinct d (xs.map f) ↔ ∀ x ∈ xs, AllDistinct d [f x] := by
  rw [List.map_eq_flatMap, allDistinct_flatMap]

@[simp] theorem allDistinct_map_deeper {k : Nat} :
    AllDistinct d (ls.map (Line.deeper k)) ↔ AllDistinct d ls := by
  unfold AllDistinct elements
  rw [List.flatMap_map]
  rfl

/-- The elements of the first line, and those of the others. -/
theorem allDistinct_line {pieces : List Piece} :
    AllDistinct d (⟨level, pieces⟩ :: ls) ↔
      (∀ as ∈ pieces.filterMap Piece.attributes?, Attribute.Distinct d as) ∧ AllDistinct d ls := by
  unfold AllDistinct elements
  rw [List.flatMap_cons, List.forall_mem_append]

@[simp] theorem allDistinct_openLine :
    AllDistinct d (openLine level e as :: ls) ↔ Attribute.Distinct d as ∧ AllDistinct d ls :=
  List.forall_mem_cons

@[simp] theorem allDistinct_closeLine :
    AllDistinct d (closeLine level e :: ls) ↔ AllDistinct d ls := Iff.rfl

@[simp] theorem allDistinct_textElement {s : String} :
    AllDistinct d (textElement level e as s :: ls) ↔ Attribute.Distinct d as ∧ AllDistinct d ls :=
  List.forall_mem_cons

@[simp] theorem allDistinct_voidElement :
    AllDistinct d (voidElement level e as :: ls) ↔ Attribute.Distinct d as ∧ AllDistinct d ls :=
  List.forall_mem_cons

@[simp] theorem allDistinct_emptyElement {c : Dialect} :
    AllDistinct d (emptyElement c level e as :: ls) ↔ Attribute.Distinct d as ∧ AllDistinct d ls := by
  cases c <;> exact List.forall_mem_cons

end Lines

/-! ## Fixed names -/

/-- Looks give the name of classes, if any. -/
theorem given_styled_sublist (d : Dialect) (parts : List String) :
    ((styled parts).map (Attribute.given d)).Sublist [Attribute.classKey d] := by
  unfold styled Attribute.ofClasses
  dsimp only
  split
  · exact List.nil_sublist _
  · exact List.Sublist.refl _

/-- Styling classes among attributes of fixed names. -/
theorem distinct_around (d : Dialect) (as bs : List Attribute) (names others parts : List String)
    (has : as.map (Attribute.given d) = names) (hbs : bs.map (Attribute.given d) = others)
    (h : Attribute.apart d (names ++ (Attribute.classKey d :: others)) = true) :
    Attribute.Distinct d (as ++ (styled parts ++ bs)) := by
  refine Attribute.distinct_of_apart _ rfl (Attribute.apart_of_sublist ?_ h)
  rw [List.map_append, List.map_append, has, hbs]
  exact ((given_styled_sublist d parts).append_right others).append_left names

/-- Attributes in front of the looks, whose names stay apart from that of classes. -/
theorem distinct_before (d : Dialect) (as : List Attribute) (names parts : List String)
    (has : as.map (Attribute.given d) = names)
    (h : Attribute.apart d (names ++ [Attribute.classKey d]) = true) :
    Attribute.Distinct d (as ++ styled parts) := by
  simpa using distinct_around d as [] names [] parts has rfl h

/-- Attributes behind the looks. -/
theorem distinct_after (d : Dialect) (bs : List Attribute) (others parts : List String)
    (hbs : bs.map (Attribute.given d) = others)
    (h : Attribute.apart d (Attribute.classKey d :: others) = true) :
    Attribute.Distinct d (styled parts ++ bs) := by
  have haround := distinct_around d [] bs [] others parts rfl hbs h
  rwa [List.nil_append] at haround

/-- One attribute in front of the looks. -/
theorem distinct_cons_styled {d : Dialect} {a : Attribute} (parts : List String)
    (h : Attribute.apart d [a.given d, Attribute.classKey d] = true) :
    Attribute.Distinct d (a :: styled parts) := by
  have hbefore := distinct_before d [a] [a.given d] parts rfl h
  rwa [List.singleton_append] at hbefore

@[simp] theorem distinct_styled (d : Dialect) (parts : List String) :
    Attribute.Distinct d (styled parts) := by
  have hbefore := distinct_before d [] [] parts rfl (by cases d <;> decide +kernel)
  rwa [List.nil_append] at hbefore

@[simp] theorem distinct_nil (d : Dialect) : Attribute.Distinct d [] := List.nodup_nil

/-! ## Components of fixed names -/

@[simp] theorem allDistinct_repeatedRows (d : Dialect) (items : List ListItem) :
    AllDistinct d (repeatedRows d items) := by
  have hrow : Attribute.Distinct .react (.bound "key" "item.id" :: styled [Look.listRow]) :=
    distinct_cons_styled _ (by decide +kernel)
  cases d with
  | react => simp [repeatedRows, allDistinct_line, Piece.attributes?, hrow]
  | vue =>
    have hrow : ∀ c, Attribute.Distinct .vue
        ([.directive "v-for" c, .bound "key" "item.id"] ++ styled [Look.listRow]) := fun c =>
      distinct_before _ _ ["v-for", ":key"] _ rfl (by decide +kernel)
    simp only [List.cons_append, List.nil_append] at hrow
    simp [repeatedRows, allDistinct_line, Piece.attributes?, hrow]

@[simp] theorem allDistinct_tickBox (d : Dialect) {role : List Attribute} {look cls : String}
    {label : Option String} (h : Attribute.Distinct d (.plain "type" "checkbox" :: role)) :
    AllDistinct d (tickBox look role cls label) := by
  simp [tickBox, h]

@[simp] theorem allDistinct_progressBar (d : Dialect) (value : Option Binary64) {ls : List Line} :
    AllDistinct d (progressBar d value :: ls) ↔ AllDistinct d ls := by
  have hstyle : ∀ a : Attribute, a.given d = "style" →
      Attribute.Distinct d (styled [Look.progressBar] ++ [a]) := by
    intro a ha
    exact distinct_after d [a] ["style"] _ (congrArg (fun n => [n]) ha)
      (by cases d <;> decide +kernel)
  cases d with
  | react => exact allDistinct_emptyElement.trans (and_iff_right (hstyle _ rfl))
  | vue => exact allDistinct_emptyElement.trans (and_iff_right (hstyle _ rfl))

@[simp] theorem allDistinct_radioChoice (d : Dialect) (id option : String) :
    AllDistinct d [radioChoice id option] := by
  have hinput : Attribute.Distinct d
      [.plain "type" "radio", .plain "name" id, .plain "value" option] :=
    Attribute.distinct_of_apart ["type", "name", "value"] rfl (by cases d <;> decide +kernel)
  simp [radioChoice, allDistinct_line, Piece.attributes?, hinput]

@[simp] theorem allDistinct_breadcrumbSteps (d : Dialect) (steps : List String) :
    AllDistinct d (breadcrumbSteps steps) := by
  have hlast : Attribute.Distinct d
      (.plain "aria-current" "page" :: styled [Look.breadcrumbCurrent]) :=
    distinct_cons_styled _ (by cases d <;> decide +kernel)
  induction steps with
  | nil => exact allDistinct_nil
  | cons s rest ih =>
    cases rest with
    | nil => simp [breadcrumbSteps, hlast]
    | cons t rest => simp [breadcrumbSteps, ih]

@[simp] theorem allDistinct_optionalLine {e : String} {as : List Attribute} {s : Option String}
    (h : Attribute.Distinct d as) : AllDistinct d (optionalLine e as s) := by
  cases s <;> simp [optionalLine, h]

@[simp] theorem allDistinct_tableRow (d : Dialect) (cell : String) (row : List String) :
    AllDistinct d (tableRow cell row) := by
  simp [tableRow, allDistinct_map]

/-- A value of a slider is bound under its name, whatever it is. -/
theorem sliderValue_eq (d : Dialect) (name : String) (x : Option Binary64) (otherwise : Nat) :
    ∃ c, sliderValue d name x otherwise = .bound name c := by
  unfold sliderValue Json.ofBinary64
  split <;> exact ⟨_, rfl⟩

/-- **A component of fixed names**, whatever its props are. -/
theorem allDistinct_componentLines (d : Dialect) (id : String) {k : Kind} (h : k.spreads = false)
    (s : Settings k) : AllDistinct d (componentLines d id k s) := by
  -- kinds that write their props as they come are excluded; the others write names of their own
  cases k with
  | input | textarea | image => cases h
  | avatar =>
    obtain ⟨⟨src, alt, initials, ⟨⟩⟩, cls, others⟩ := s
    rw [componentLines]
    split
    · next src _ =>
      refine allDistinct_voidElement.2 ⟨?_, allDistinct_nil⟩
      have himage := distinct_before d [.plain "src" src, .plain "alt" (alt.getD "")] ["src", "alt"]
        [Look.avatarImage, cls.getD ""] rfl (by cases d <;> decide +kernel)
      rwa [List.cons_append, List.singleton_append] at himage
    · simp
  | slider =>
    obtain ⟨⟨min, max, value, ⟨⟩⟩, cls, others⟩ := s
    obtain ⟨a, ha⟩ := sliderValue_eq d "min" min 0
    obtain ⟨b, hb⟩ := sliderValue_eq d "max" max 100
    obtain ⟨c, hc⟩ := sliderValue_eq d (Attribute.keyIn d "defaultValue") value 50
    rw [componentLines, ha, hb, hc]
    refine allDistinct_voidElement.2 ⟨?_, allDistinct_nil⟩
    cases d with
    | react =>
      exact distinct_before _ _ ["type", "min", "max", "defaultValue"] _ rfl (by decide +kernel)
    | vue => exact distinct_before _ _ ["type", ":min", ":max", ":value"] _ rfl (by decide +kernel)
  | video =>
    obtain ⟨⟨src, ⟨⟩⟩, cls, others⟩ := s
    rw [componentLines]
    refine allDistinct_emptyElement.2 ⟨?_, allDistinct_nil⟩
    cases Action.present src with
    | none => exact distinct_cons_styled _ (by cases d <;> decide +kernel)
    | some src =>
      have hvideo := distinct_before d [.plain "src" src, .flag "controls"] ["src", "controls"]
        [Look.video, cls.getD ""] rfl (by cases d <;> decide +kernel)
      rwa [List.cons_append, List.singleton_append] at hvideo
  | codeBlock =>
    obtain ⟨⟨code, ⟨⟩⟩, cls, others⟩ := s
    have hsample : Attribute.Distinct .vue (styled [Look.code, cls.getD ""] ++ [.flag "v-pre"]) :=
      distinct_after _ _ ["v-pre"] _ rfl (by decide +kernel)
    cases d <;> simp [componentLines, allDistinct_line, Piece.attributes?, hsample]
  | toggle =>
    obtain ⟨⟨label, ⟨⟩⟩, cls, others⟩ := s
    exact allDistinct_tickBox d (Attribute.distinct_of_apart ["type", "role"] rfl
      (by cases d <;> decide +kernel))
  | checkbox =>
    obtain ⟨⟨label, ⟨⟩⟩, cls, others⟩ := s
    exact allDistinct_tickBox d (Attribute.distinct_of_apart ["type"] rfl
      (by cases d <;> decide +kernel))
  | alert =>
    obtain ⟨⟨title, body, tone, ⟨⟩⟩, cls, others⟩ := s
    have hrole : Attribute.Distinct d
        (.plain "role" "alert" :: styled [Look.alert tone, cls.getD ""]) :=
      distinct_cons_styled _ (by cases d <;> decide +kernel)
    simp [componentLines, hrole]
  | radioGroup =>
    obtain ⟨⟨options, ⟨⟩⟩, cls, others⟩ := s
    have hrole : Attribute.Distinct d
        (.plain "role" "radiogroup" :: styled [Look.radioGroup, cls.getD ""]) :=
      distinct_cons_styled _ (by cases d <;> decide +kernel)
    simp [componentLines, allDistinct_map, hrole]
  | breadcrumb =>
    obtain ⟨⟨items, ⟨⟩⟩, cls, others⟩ := s
    have hlabel : Attribute.Distinct d
        (.plain "aria-label" "Breadcrumb" :: styled [cls.getD ""]) :=
      distinct_cons_styled _ (by cases d <;> decide +kernel)
    simp [componentLines, hlabel]
  | _ => simp [componentLines, allDistinct_map]

/-! ## Placeholders -/

/-- The classes of a placeholder are always there. -/
theorem styled_unknown (cls : String) : ∃ v, styled [Look.unknown, cls] = [.classes v] := by
  have hblank : Text.isBlank 'p' = false := by decide
  have hjoin : 'p' ∈ (ClassList.join [ClassList.join [Look.unknown, cls]]).toList :=
    ClassList.mem_join hblank List.mem_cons_self
      (ClassList.mem_join hblank List.mem_cons_self (by decide +kernel))
  unfold styled Attribute.ofClasses
  dsimp only
  split
  · next h =>
    rw [beq_iff_eq.1 h] at hjoin
    nomatch hjoin
  · exact ⟨_, rfl⟩

end Export

/-! ## Trees -/

open Markup Export

/-- What a placeholder does not write of its props. -/
def placeholderSkip : List String := ["label", "title", "className"]

/-- **Props without a clash of names**: where they are written as they come, no two of them have one
name, and a placeholder has none of the two names that are its own. -/
def Props.Unambiguous (d : Dialect) : Props → Prop
  | .known k s => k.spreads = true → (Attribute.spelledNames d [] s.toFields).Nodup
  | .unknown _ fs =>
    (Attribute.spelledNames d placeholderSkip fs).Nodup ∧
      "data-unknown-component" ∉ Attribute.spelledNames d placeholderSkip fs ∧
      Attribute.classKey d ∉ Attribute.spelledNames d placeholderSkip fs

instance (d : Dialect) : DecidablePred (Props.Unambiguous d)
  | .known k s =>
    inferInstanceAs (Decidable (k.spreads = true → (Attribute.spelledNames d [] s.toFields).Nodup))
  | .unknown _ _ => inferInstanceAs (Decidable (_ ∧ _ ∧ _))

namespace Export

/-- Props are written without a clash when their names are distinct. -/
theorem distinct_ofProps {skip : List String} {fs : Json.Fields} :
    Attribute.Distinct d (Attribute.ofProps d skip fs)
      ↔ (Attribute.spelledNames d skip fs).Nodup := by
  unfold Attribute.Distinct
  rw [Attribute.names_ofProps]

/-- A placeholder is written without a clash when its props have none with it. -/
theorem distinct_placeholderAttributes {t : String} {fs : Json.Fields} :
    Attribute.Distinct d (placeholderAttributes d t fs) ↔ (Props.unknown t fs).Unambiguous d := by
  obtain ⟨v, hv⟩ := styled_unknown (((Props.unknown t fs).className?).getD "")
  -- its mark and its classes stand in front of the props and behind them
  have hmark : Attribute.bare d ((Attribute.plain "data-unknown-component" t).name d)
      = "data-unknown-component" := by
    have hname : (Attribute.plain "data-unknown-component" t).name d = "data-unknown-component" :=
      Attribute.name_eq_given (show '=' ∉ "data-unknown-component".toList by decide)
    rw [hname]
    cases d <;> decide
  have hclasses : Attribute.bare d ((Attribute.classes v).name d) = Attribute.classKey d := by
    have hname : (Attribute.classes v).name d = Attribute.classKey d :=
      Attribute.name_eq_given (show '=' ∉ (Attribute.classKey d).toList by cases d <;> decide)
    rw [hname, Attribute.bare_classKey]
  have hapart : "data-unknown-component" ≠ Attribute.classKey d := by cases d <;> decide
  have hnames := Attribute.names_ofProps d placeholderSkip fs
  unfold Attribute.Distinct placeholderAttributes Props.Unambiguous
  unfold placeholderSkip at hnames ⊢
  rw [hv, List.map_cons, List.map_append, List.map_singleton, hmark, hclasses, hnames,
    List.nodup_cons, List.mem_append, List.mem_singleton, not_or, List.nodup_append]
  constructor
  · rintro ⟨⟨hfree, -⟩, hdistinct, -, hdisjoint⟩
    exact ⟨hdistinct, hfree, fun hmem => hdisjoint _ hmem _ (List.mem_singleton_self _) rfl⟩
  · rintro ⟨hdistinct, hfree, hclass⟩
    refine ⟨⟨hfree, hapart⟩, hdistinct, List.pairwise_singleton _ _, fun a ha b hb hab => hclass ?_⟩
    rwa [← List.mem_singleton.1 hb, ← hab]

/-- **One block** has distinct names just when its props are unambiguous and the lines in it have
distinct names. -/
theorem allDistinct_block_iff (id : String) {p : Props} {inner : List Line}
    (h : ∀ k, p.kind? = some k → k.isContainer = false → inner = []) :
    AllDistinct d (block d id p inner) ↔ p.Unambiguous d ∧ AllDistinct d inner := by
  cases p with
  | unknown t fs =>
    unfold block
    dsimp only
    split
    · next hempty =>
      rw [List.isEmpty_iff.1 hempty]
      simp [distinct_placeholderAttributes]
    · simp [distinct_placeholderAttributes]
  | known k s =>
    unfold block
    dsimp only
    cases hk : k.isContainer with
    | true =>
      -- the box of a container carries its classes and nothing else
      have hspreads : k.spreads = false := by cases k <;> first | rfl | cases hk
      have hprops : (Props.known k s).Unambiguous d := fun hs =>
        absurd (hspreads.symm.trans hs) Bool.false_ne_true
      rw [if_pos rfl, and_iff_right hprops]
      split
      · next hempty =>
        rw [List.isEmpty_iff.1 hempty]
        simp
      · simp
    | false =>
      rw [h k rfl hk, and_iff_left allDistinct_nil, if_neg (by decide)]
      cases hspreads : k.spreads with
      | false =>
        exact iff_of_true (allDistinct_componentLines d id hspreads s) fun hs =>
          absurd (hspreads.symm.trans hs) Bool.false_ne_true
      | true =>
        have hprops : (Props.known k s).Unambiguous d
            ↔ Attribute.Distinct d (Attribute.ofProps d [] s.toFields) :=
          ⟨fun hs => distinct_ofProps.2 (hs hspreads), fun hs _ => distinct_ofProps.1 hs⟩
        rw [hprops]
        -- the kinds that write their props as they come have a single element
        cases k with
        | input | textarea | image => simp [componentLines]
        | _ => cases hspreads

/-- A shaped tree is written without a clash when none of its nodes has one. -/
theorem allDistinct_lines_iff {n : Node} (h : n.Shaped) :
    AllDistinct d (lines d n) ↔ ∀ m ∈ n.nodes, m.props.Unambiguous d := by
  induction n using Node.induct with
  | step n ih =>
    obtain ⟨hfits, hbelow⟩ := Node.shaped_iff.1 h
    have hleaf : ∀ k, n.props.kind? = some k → k.isContainer = false →
        n.childList.flatMap (lines d) = [] := fun k hk hcontainer => by
      rw [Node.childList_eq_nil hfits hk hcontainer, List.flatMap_nil]
    rw [lines_eq, allDistinct_block_iff n.id hleaf, allDistinct_flatMap, Node.nodes_cons,
      List.forall_mem_cons, List.forall_mem_flatMap]
    exact and_congr_right fun _ => forall₂_congr fun c hc => ih c hc (hbelow c hc)

/-- **An export** has distinct names just when the props of every node are unambiguous. -/
theorem allDistinct_fragment_iff {v : Json} {n : Node} (h : Node.ofJson? v = some n) (level : Nat) :
    AllDistinct d (fragment d level n) ↔ ∀ m ∈ n.nodes, m.props.Unambiguous d :=
  allDistinct_map_deeper.trans (allDistinct_lines_iff (Node.shaped_of_built (.read h)))

/-! ## What each dialect asks for -/

/-- A function component gives every prop the name of its key. -/
theorem spelledNames_react (skip : List String) (fs : Json.Fields) :
    Attribute.spelledNames .react skip fs = Entries.keys (fs.filter (Attribute.isSeen skip)) := by
  refine List.map_congr_left fun e _ => ?_
  obtain ⟨key, v⟩ := e
  have hkey : Attribute.keyIn .react key = key := if_neg fun h => nomatch h.1
  unfold Attribute.spelled
  cases v with
  | string s =>
    dsimp only
    split
    · next h => exact h.symm
    · exact hkey
  | null | bool _ | number _ | array _ | object _ => exact hkey

/-- **Where keys are distinct**, a function component has a clash in one case only. -/
theorem unambiguous_react_iff {p : Props} (h : (Entries.keys p.toFields).Nodup) :
    p.Unambiguous .react ↔
      (p.kind? = none → "data-unknown-component" ∉ Entries.keys p.toFields) := by
  have hdistinct : ∀ skip, (Attribute.spelledNames .react skip p.toFields).Nodup := fun skip => by
    -- this dialect writes a key as it is, so distinct keys are distinct names
    rw [spelledNames_react]
    exact h.sublist (List.filter_sublist.map _)
  cases p with
  | known k s => exact iff_of_true (fun _ => hdistinct []) nofun
  | unknown t fs =>
    have hmark : Attribute.isWritten placeholderSkip "data-unknown-component" = true := by decide
    have hclass : Attribute.isWritten placeholderSkip "className" = false := by decide
    have hmem : "data-unknown-component" ∈ Attribute.spelledNames .react placeholderSkip fs
        ↔ "data-unknown-component" ∈ Entries.keys fs := by
      rw [spelledNames_react]
      simp [Entries.keys, Attribute.isSeen, hmark]
    have hfree : "className" ∉ Attribute.spelledNames .react placeholderSkip fs := by
      rw [spelledNames_react]
      simp [Entries.keys, Attribute.isSeen, hclass]
    exact ⟨fun hp _ hkey => hp.2.1 (hmem.2 hkey), fun hp =>
      ⟨hdistinct _, fun hkey => hp rfl (hmem.1 hkey), hfree⟩⟩

/-- **Which exports carry an attribute twice.**

In a tree that was read from a legible value no element has two attributes of one name just when no
two props of a node are written under one name, and none of a placeholder under a name of its own.  In a
function component that is so unless a node of unrecognised type has the mark of placeholders among its
props. -/
theorem distinct_fragment_iff {v : Json} {n : Node} (hv : v.Legible) (h : Node.ofJson? v = some n)
    (level : Nat) :
    (∀ d, AllDistinct d (fragment d level n) ↔ ∀ m ∈ n.nodes, m.props.Unambiguous d) ∧
    (AllDistinct .react (fragment .react level n) ↔ ∀ m ∈ n.nodes, m.kind? = none →
      "data-unknown-component" ∉ Entries.keys m.props.toFields) := by
  refine ⟨fun d => allDistinct_fragment_iff h level, (allDistinct_fragment_iff h level).trans
    (forall₂_congr fun m hm => unambiguous_react_iff ?_)⟩
  have hlegible := Node.legible_of_ofJson? hv h
  have hshell : m.shell ∈ n.shells := List.mem_map_of_mem hm
  exact (Json.isTidy_object.1 (Props.isTidy_toFields (hlegible.stable _ hshell).props
    (hlegible.tidy _ hshell).props)).1

/-- A form with a field and a node of unrecognised type, both with props of their own. -/
def orderForm : Json :=
  .object [("id", .string "order"), ("type", .string "Container"),
    ("children", .array [
      .object [("id", .string "name"), ("type", .string "Input"),
        ("props", .object [("defaultValue", .string "Ann"), ("className", .string "w-full"),
          ("data-track", .string "name")])],
      .object [("id", .string "parcel"), ("type", .string "Hologram"),
        ("props", .object [("title", .string "Parcel"), ("depth", .number (.whole 3))])]])]

/-- The law on a form with a field and a placeholder. -/
theorem distinct_fragment_orderForm :
    orderForm.Legible ∧ ∃ n, Node.ofJson? orderForm = some n ∧
      AllDistinct .react (fragment .react 0 n) ∧ AllDistinct .vue (fragment .vue 0 n) := by
  have hlegible : orderForm.Legible := by decide +kernel
  refine ⟨hlegible, _, rfl, ?_⟩
  obtain ⟨hlines, hreact⟩ := distinct_fragment_iff hlegible rfl 0
  exact ⟨hreact.2 (by decide +kernel), (hlines .vue).2 (by decide +kernel)⟩

/-- A node of unrecognised type with the mark of placeholders among its props. -/
def markedNode : Json :=
  .object [("id", .string "x"), ("type", .string "Hologram"),
    ("props", .object [("data-unknown-component", .string "y")])]

/-- A field whose value is given under both names that it has. -/
def filledField : Json :=
  .object [("id", .string "name"), ("type", .string "Input"),
    ("props", .object [("defaultValue", .string "Ann"), ("value", .string "Bob")])]

/-- **An attribute comes twice**: the mark in both dialects, the value in a single-file component. -/
theorem not_distinct_fragment_markedNode :
    (∃ n, Node.ofJson? markedNode = some n ∧
      ¬ AllDistinct .react (fragment .react 0 n) ∧ ¬ AllDistinct .vue (fragment .vue 0 n) ∧
      fragmentText .react 2 0 n =
        "<div data-unknown-component=\"Hologram\" data-unknown-component=\"y\" "
          ++ "className=\"p-2 border border-red-300 text-red-500 text-xs\">Hologram</div>") ∧
    ∃ n, Node.ofJson? filledField = some n ∧ ¬ AllDistinct .vue (fragment .vue 0 n) ∧
      fragmentText .vue 2 0 n = "<input value=\"Ann\" value=\"Bob\" />" := by
  refine ⟨⟨_, rfl, ?_, ?_, by decide +kernel⟩, _, rfl, ?_, by decide +kernel⟩
  · rw [allDistinct_fragment_iff (v := markedNode) rfl]
    decide +kernel
  · rw [allDistinct_fragment_iff (v := markedNode) rfl]
    decide +kernel
  · rw [allDistinct_fragment_iff (v := filledField) rfl]
    decide +kernel

end Export
end PageBuilder
