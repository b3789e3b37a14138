/-
  Names of attributes.

  A page reads the name of an attribute off its text, up to the equals sign.  In a single-file component
  the name says what the value is: under a name that starts with a colon or with `v-` it is an
  expression, under any other it is a text.

  Programs:       `Attribute.name` — the name in the text; `isDirective` — whether it stands for an
                  expression.
  Specification:  `keeps_ofProps_iff` — strings are written as texts, and all other values are bound to
                  a plain name, just when no key that is written is itself a directive; and whatever the
                  keys are, a string is never written like another value.
  Crux:           a key that can be a name holds no equals sign, so it is read back as it is written.
-/
import Mathlib.Data.List.Basic
import PageBuilder.Markup.Attribute

namespace PageBuilder.Markup.Attribute

/-! ## Names -/

/-- **The name of an attribute**, as a page reads it off the text. -/
def name (d : Dialect) (a : Attribute) : String :=
  String.ofList ((a.text d).toList.takeWhile (· ≠ '='))

/-- The name that an attribute is given. -/
def given (d : Dialect) : Attribute → String
  | .classes _ => classKey d
  | .plain n _ | .directive n _ | .flag n => n
  | .bound n _ =>
    match d with
    | .react => n
    | .vue => ":" ++ n

/-- Whether a name stands for an expression. -/
def isDirective (name : String) : Bool :=
  match name.toList with
  | ':' :: _ => true
  | 'v' :: '-' :: _ => true
  | _ => false

/-- Whether a prop of some key is written. -/
def isWritten (skip : List String) (key : String) : Bool :=
  !(contentKeys.contains key || skip.contains key || !isName key)

variable {d : Dialect} {key : String}

theorem assign_eq (n v : String) : assign n v = n ++ "=" ++ ("\"" ++ v ++ "\"") := by
  unfold assign
  rw [← String.toList_inj]
  simp

/-- The text is the given name, alone or before an equals sign. -/
theorem text_eq (d : Dialect) (a : Attribute) :
    a.text d = a.given d ∨ ∃ rest, a.text d = a.given d ++ "=" ++ rest := by
  cases a with
  | flag n => exact .inl rfl
  | classes v | plain n v | directive n v => exact .inr ⟨_, assign_eq _ _⟩
  | bound n c =>
    cases d with
    | vue => exact .inr ⟨_, assign_eq _ _⟩
    | react =>
      refine .inr ⟨"\x7b" ++ c ++ "\x7d", ?_⟩
      rw [← String.toList_inj]
      simp [text, given]

/-- **The name is read as it is given**, if it holds no equals sign. -/
theorem name_eq_given {a : Attribute} (h : '=' ∉ (a.given d).toList) : a.name d = a.given d := by
  have hall : ∀ rest, ((a.given d).toList ++ rest).takeWhile (· ≠ '=')
      = (a.given d).toList ++ rest.takeWhile (· ≠ '=') := fun rest =>
    List.takeWhile_append_of_pos fun c hc => decide_eq_true fun heq => h (heq ▸ hc)
  unfold name
  rcases text_eq d a with htext | ⟨rest, htext⟩
  · rw [htext, ← List.append_nil (a.given d).toList, hall, List.takeWhile_nil, List.append_nil,
      String.ofList_toList]
  · rw [htext, String.toList_append, String.toList_append, List.append_assoc, hall,
      show "=".toList ++ rest.toList = '=' :: rest.toList from rfl,
      List.takeWhile_cons_of_neg (by decide), List.append_nil, String.ofList_toList]

/-- A key that can be a name holds no equals sign. -/
theorem not_mem_of_isName (h : isName key = true) : '=' ∉ key.toList := by
  unfold isName at h
  split at h
  · cases h
  · next c cs hkey =>
    obtain ⟨hc, hcs⟩ := Bool.and_eq_true_iff.1 h
    rw [hkey, List.mem_cons, not_or]
    refine ⟨?_, fun hmem => ?_⟩
    · rintro rfl
      revert hc
      decide
    · have := List.all_eq_true.1 hcs _ hmem
      revert this
      decide

/-! ## Props that are written -/

/-- A prop is the styling classes in one dialect just when it is in the other. -/
theorem keyIn_eq_className_iff : keyIn d key = "className" ↔ key = "className" := by
  unfold keyIn
  split
  · next h =>
    rw [h.2]
    decide
  · exact Iff.rfl

/-- **One prop as an attribute**, if it can be one. -/
theorem ofProp_eq (d : Dialect) (skip : List String) (key : String) (v : Json) :
    ofProp d skip (key, v) =
      if contentKeys.contains key || skip.contains key || !isName key then []
      else match v with
        | .string s => if key = "className" then ofClasses s else [.plain (keyIn d key) s]
        | v => [.bound (keyIn d key) (code d v)] := by
  unfold ofProp
  dsimp only
  -- not written, a string of classes, or an attribute
  split
  · rfl
  · split
    · next hkey =>
      dsimp only
      rw [if_pos (keyIn_eq_className_iff.1 hkey)]
    · next v _ _ hother =>
      cases v with
      | string s =>
        dsimp only
        rw [if_neg fun hkey => hother s (keyIn_eq_className_iff.2 hkey) rfl]
        rfl
      | _ => rfl

/-- A key is written unless it is for content, is skipped, or is no name. -/
theorem isWritten_iff {skip : List String} : isWritten skip key = true ↔
    (contentKeys.contains key || skip.contains key || !isName key) = false := by
  unfold isWritten
  rw [Bool.not_eq_true']

/-- A key that is written has no equals sign in it. -/
theorem not_mem_keyIn {skip : List String} (h : isWritten skip key = true) (d : Dialect) :
    '=' ∉ (keyIn d key).toList := by
  unfold keyIn
  split
  · decide
  · exact not_mem_of_isName (by simpa using (Bool.or_eq_false_iff.1 (isWritten_iff.1 h)).2)

theorem ofProp_of_not_isWritten {skip : List String} (h : isWritten skip key = false) (d : Dialect)
    (v : Json) : ofProp d skip (key, v) = [] := by
  unfold isWritten at h
  rw [ofProp_eq, if_pos (by rwa [Bool.not_eq_false'] at h)]

/-- A string is written as the styling classes or as text under its name. -/
theorem ofProp_string {skip : List String} (h : isWritten skip key = true) (d : Dialect)
    (s : String) : ofProp d skip (key, .string s) =
      if key = "className" then ofClasses s else [.plain (keyIn d key) s] := by
  rw [ofProp_eq, if_neg (Bool.eq_false_iff.1 (isWritten_iff.1 h))]

/-- Any other value is bound to its name. -/
theorem ofProp_of_string?_eq_none {skip : List String} (h : isWritten skip key = true) (d : Dialect)
    {v : Json} (hv : v.string? = none) : ofProp d skip (key, v) = [.bound (keyIn d key) (code d v)] := by
  rw [ofProp_eq, if_neg (Bool.eq_false_iff.1 (isWritten_iff.1 h))]
  cases v with
  | string s => nomatch hv
  | null | bool _ | number _ | array _ | object _ => rfl

/-- Classes are given the name that the dialect has for them. -/
theorem given_of_mem_ofClasses {a : Attribute} {s : String} (h : a ∈ ofClasses s) (d : Dialect) :
    a.given d = classKey d := by
  unfold ofClasses at h
  dsimp only at h
  split at h
  · nomatch h
  · rw [List.mem_singleton.1 h]
    rfl

/-- **The name of a prop that is written** is read as it is given. -/
theorem name_of_mem_ofProp {skip : List String} {a : Attribute} {e : String × Json}
    (h : a ∈ ofProp d skip e) : a.name d = a.given d := by
  obtain ⟨key, v⟩ := e
  refine name_eq_given ?_
  cases hwritten : isWritten skip key with
  | false =>
    rw [ofProp_of_not_isWritten hwritten] at h
    nomatch h
  | true =>
    have hkey := not_mem_keyIn hwritten d
    -- a string is given the key as it is, any other value the key as the dialect binds it
    cases v with
    | string s =>
      rw [ofProp_string hwritten] at h
      split at h
      · rw [given_of_mem_ofClasses h]
        cases d <;> decide
      · rw [List.mem_singleton.1 h]
        exact hkey
    | null | bool _ | number _ | array _ | object _ =>
      rw [ofProp_of_string?_eq_none hwritten d rfl] at h
      rw [List.mem_singleton.1 h]
      cases d with
      | react => exact hkey
      | vue => simpa [given] using hkey

/-! ## Texts and expressions -/

/-- **A name that keeps to its value**: a string stands under a name that is no directive, and any other
value is bound to one. -/
def Keeps (v : Json) (name : String) : Prop :=
  match v.string? with
  | some _ => isDirective name = false
  | none => ∃ plain, name = ":" ++ plain ∧ isDirective plain = false

/-- No name becomes or ceases to be a directive by what a dialect calls it. -/
theorem isDirective_keyIn (d : Dialect) (key : String) : isDirective (keyIn d key) = isDirective key := by
  unfold keyIn
  split
  · next h =>
    rw [h.2]
    decide
  · rfl

theorem eq_string_of_string? {v : Json} {s : String} (h : v.string? = some s) : v = .string s := by
  cases v with
  | string t => rw [Option.some.inj h]
  | null | bool _ | number _ | array _ | object _ => nomatch h

/-- **One prop** keeps to its value just when its key is no directive. -/
theorem keeps_ofProp_iff {skip : List String} (h : isWritten skip key = true) (v : Json) :
    (∀ a ∈ ofProp .vue skip (key, v), Keeps v (a.name .vue)) ↔ isDirective key = false := by
  have hgiven : (∀ a ∈ ofProp .vue skip (key, v), Keeps v (a.name .vue)) ↔
      ∀ a ∈ ofProp .vue skip (key, v), Keeps v (a.given .vue) :=
    forall₂_congr fun a ha => by rw [name_of_mem_ofProp ha]
  rw [hgiven, ← isDirective_keyIn .vue]
  unfold Keeps
  cases hv : v.string? with
  | none =>
    rw [ofProp_of_string?_eq_none h .vue hv, List.forall_mem_singleton]
    constructor
    · rintro ⟨plain, heq, hplain⟩
      rwa [(String.append_right_inj _).1 heq]
    · exact fun hkey => ⟨_, rfl, hkey⟩
  | some s =>
    rw [eq_string_of_string? hv, ofProp_string h]
    split
    · next hkey =>
      -- blank classes leave nothing to check, but the key is no directive either way
      refine iff_of_true (fun a ha => ?_) (by rw [hkey]; decide)
      dsimp only
      rw [given_of_mem_ofClasses ha]
      decide
    · exact List.forall_mem_singleton

theorem texts_append (d : Dialect) (as bs : List Attribute) :
    texts d (as ++ bs) = texts d as ++ texts d bs := by
  unfold texts
  rw [List.map_append, String.join_append]

theorem texts_singleton_ne (d : Dialect) (a : Attribute) : texts d [a] ≠ texts d [] := by
  intro h
  have hlength := congrArg String.length h
  simp [texts, String.join] at hlength

/-- Attributes that are spelled alike are given one name. -/
theorem given_eq_of_texts_eq {a b : Attribute} (ha : a.name d = a.given d) (hb : b.name d = b.given d)
    (h : texts d [a] = texts d [b]) : a.given d = b.given d := by
  have htext : a.text d = b.text d := by
    simpa [texts, String.join] using h
  rw [← ha, ← hb]
  unfold name
  rw [htext]

/-- **A string is never written like another value.** -/
theorem texts_ofProp_ne {skip : List String} (h : isWritten skip key = true) (s : String) {v : Json}
    (hv : v.string? = none) :
    texts .vue (ofProp .vue skip (key, .string s)) ≠ texts .vue (ofProp .vue skip (key, v)) := by
  have hname : ∀ {w : Json} {a : Attribute}, ofProp .vue skip (key, w) = [a] →
      a.name .vue = a.given .vue := fun heq => name_of_mem_ofProp (heq ▸ List.mem_singleton_self _)
  have hbound := ofProp_of_string?_eq_none h .vue hv
  have hstring := ofProp_string h .vue s
  intro htexts
  split at hstring
  · next hkey =>
    -- blank classes are not written at all, and others not under their key
    subst hkey
    unfold ofClasses at hstring
    dsimp only at hstring
    split at hstring
    · rw [hstring, hbound] at htexts
      exact texts_singleton_ne _ _ htexts.symm
    · rw [hstring, hbound] at htexts
      exact absurd (given_eq_of_texts_eq (hname hstring) (hname hbound) htexts)
        (by decide : ¬ classKey .vue = ":" ++ keyIn .vue "className")
  · rw [hstring, hbound] at htexts
    have hgiven : keyIn .vue key = ":" ++ keyIn .vue key :=
      given_eq_of_texts_eq (hname hstring) (hname hbound) htexts
    have hlength := congrArg String.length hgiven
    have hcolon : ":".length = 1 := rfl
    rw [String.length_append] at hlength
    omega

/-- **Strings never become expressions**, as far as they do not.

In a single-file component every string among some props is written as a text and every other value is
bound to a plain name if and only if no key that is written is a directive.  Whatever the keys are, two
objects that differ in one value that is written, a string in one of them and no string in the other,
have different attributes. -/
theorem keeps_ofProps_iff (skip : List String) :
    (∀ fs : Json.Fields, (∀ e ∈ fs, ∀ a ∈ ofProp .vue skip e, Keeps e.2 (a.name .vue)) ↔
      ∀ e ∈ fs, isWritten skip e.1 = true → isDirective e.1 = false) ∧
    ∀ (front back : Json.Fields) (key s : String) (v : Json),
      isWritten skip key = true → v.string? = none →
      texts .vue (ofProps .vue skip (front ++ (key, .string s) :: back))
        ≠ texts .vue (ofProps .vue skip (front ++ (key, v) :: back)) := by
  constructor
  · refine fun fs => forall₂_congr fun e he => ?_
    obtain ⟨key, v⟩ := e
    -- a key that is not written has no attribute to keep
    cases h : isWritten skip key with
    | true => exact (keeps_ofProp_iff h v).trans (by simp)
    | false =>
      rw [ofProp_of_not_isWritten h]
      exact iff_of_true nofun nofun
  · intro front back key s v h hv htexts
    unfold ofProps at htexts
    -- the attributes around the one that differs cancel
    rw [List.flatMap_append, List.flatMap_append, List.flatMap_cons, List.flatMap_cons, texts_append,
      texts_append, texts_append, texts_append, String.append_right_inj, String.append_left_inj]
      at htexts
    exact texts_ofProp_ne h s hv htexts

/-- Props of which one key is a colon and a name. -/
def boundTitle : Json.Fields := [("rows", .number (.whole 3)), (":title", .string "count + 1")]

/-- The other prop is written as it should be, and a number in place of the text as yet another name. -/
theorem keeps_ofProps_boundTitle :
    (∀ e ∈ boundTitle.take 1, ∀ a ∈ ofProp .vue [] e, Keeps e.2 (a.name .vue)) ∧
    isWritten [] ":title" = true ∧
    texts .vue (ofProps .vue [] boundTitle)
      ≠ texts .vue (ofProps .vue [] [("rows", .number (.whole 3)), (":title", .number (.whole 1))]) := by
  obtain ⟨hkeeps, hdiffers⟩ := keeps_ofProps_iff []
  have hwritten : isWritten [] ":title" = true := by decide
  refine ⟨(hkeeps _).2 (by decide), hwritten, ?_⟩
  exact hdiffers [("rows", .number (.whole 3))] [] ":title" _ _ hwritten rfl

/-- **A string becomes an expression**: its key is a directive and stays one. -/
theorem not_keeps_boundTitle :
    ¬ (∀ e ∈ boundTitle, ∀ a ∈ ofProp .vue [] e, Keeps e.2 (a.name .vue)) ∧
    texts .vue (ofProps .vue [] boundTitle) = " :rows=\"3\" :title=\"count + 1\"" := by
  refine ⟨fun h => ?_, by decide +kernel⟩
  have htitle : isDirective ((plain ":title" "count + 1").name .vue) = false :=
    h (":title", .string "count + 1") (by decide) _ (by decide)
  rw [name_eq_given (by decide)] at htitle
  revert htitle
  decide

end PageBuilder.Markup.Attribute
