/-
  Lines that nest.

  Markup is read line by line with a STACK of the constructs that are open.  A line closes all that it
  opens, or it opens one construct and does nothing else, or it closes one and does nothing else.

  Programs:       `Line.read?` — the constructs that are open behind a line; `readLines?` — and behind
                  some lines.
  Specification:  `Nested` — a grammar of lines that nest; `readLines?_of_nested` — over such lines the
                  reader leaves the stack as it was.
  Crux:           a construct is kept with the level of the line that opened it, and each line must be
                  further in than all that stays open around it, so depth and nesting cannot part.
-/
import PageBuilder.Markup.Line

namespace PageBuilder.Markup

/-- What can be open: an element, or an expression that repeats markup. -/
inductive Construct where
  | element (name : String)
  | repetition
deriving DecidableEq, Repr

/-- An open construct, and the level of the line that opened it. -/
structure Opened where
  construct : Construct
  level : Nat
deriving DecidableEq, Repr

/-! ## One line -/

namespace Piece

/-- The construct that a piece opens. -/
def opens? : Piece → Option Construct
  | .opening e _ => some (.element e)
  | .repeatOpening _ => some .repetition
  | _ => none

/-- The construct that a piece closes. -/
def closes? : Piece → Option Construct
  | .closing e => some (.element e)
  | .repeatClosing => some .repetition
  | _ => none

/-- The constructs that are open behind a piece, the innermost first. -/
def read? (around : List Construct) (p : Piece) : Option (List Construct) :=
  match p.opens?, p.closes? with
  | some c, _ => some (c :: around)
  | none, some c => if around.head? = some c then some around.tail else none
  | none, none => some around

end Piece

/-- What a line does to the constructs that are open. -/
inductive Role where
  /-- It closes all that it opens. -/
  | contained
  | opens (c : Construct)
  | closes (c : Construct)
deriving DecidableEq, Repr

namespace Line

/-- Whether a line closes all that it opens, each construct before those around it. -/
def isContained (l : Line) : Bool := l.pieces.foldlM Piece.read? [] == some []

/-- The role of a line; one that opens or closes a construct and does anything else has none. -/
def role? (l : Line) : Option Role :=
  if l.isContained then some .contained
  else
    match l.pieces with
    | [p] => (p.opens?.map .opens).or (p.closes?.map .closes)
    | _ => none

/-- Whether a line is further in than all the lines that opened something. -/
def isInside (l : Line) (stack : List Opened) : Bool := stack.all fun o => o.level < l.level

/-- **One line**: the constructs that are open behind it, the innermost first.  What it closes must be
the innermost one, opened by a line at its own level; it must be inside all that stays open. -/
def read? (stack : List Opened) (l : Line) : Option (List Opened) :=
  match l.role?, stack with
  | some .contained, stack => if l.isInside stack then some stack else none
  | some (.opens c), stack => if l.isInside stack then some (⟨c, l.level⟩ :: stack) else none
  | some (.closes c), o :: stack =>
    if o = ⟨c, l.level⟩ ∧ l.isInside stack = true then some stack else none
  | _, _ => none

end Line

/-- **The reader**: the constructs that are open behind some lines. -/
def readLines? (stack : List Opened) (ls : List Line) : Option (List Opened) :=
  ls.foldlM Line.read? stack

theorem readLines?_append (stack : List Opened) (ls ms : List Line) :
    readLines? stack (ls ++ ms) = (readLines? stack ls).bind fun s => readLines? s ms :=
  List.foldlM_append

/-- The first line is read, and then the others. -/
theorem readLines?_cons (stack : List Opened) (l : Line) (ls : List Line) :
    readLines? stack (l :: ls) = (l.read? stack).bind fun s => readLines? s ls := by
  unfold readLines?
  rw [List.foldlM_cons]
  rfl

namespace Line

variable {level : Nat} {p : Piece} {c : Construct}

/-- A line of one piece that opens something. -/
theorem role?_of_opens (h : p.opens? = some c) : role? ⟨level, [p]⟩ = some (.opens c) := by
  cases p with
  | opening e as => rw [← Option.some.inj h]; rfl
  | repeatOpening items => rw [← Option.some.inj h]; rfl
  | _ => nomatch h

/-- A line of one piece that closes something. -/
theorem role?_of_closes (h : p.closes? = some c) : role? ⟨level, [p]⟩ = some (.closes c) := by
  cases p with
  | closing e => rw [← Option.some.inj h]; rfl
  | repeatClosing => rw [← Option.some.inj h]; rfl
  | _ => nomatch h

variable {l : Line} {stack : List Opened}

theorem isInside_iff : l.isInside stack = true ↔ ∀ o ∈ stack, o.level < l.level := by
  unfold isInside
  simp only [List.all_eq_true, decide_eq_true_eq]

/-- A line that closes what it opens leaves what is open. -/
theorem read?_of_contained (h : l.isContained = true) (hstack : ∀ o ∈ stack, o.level < l.level) :
    l.read? stack = some stack := by
  have hrole : l.role? = some .contained := if_pos h
  unfold read?
  rw [hrole]
  exact if_pos (isInside_iff.2 hstack)

/-- A line that opens something puts it on top. -/
theorem read?_of_opens (h : p.opens? = some c) (hstack : ∀ o ∈ stack, o.level < level) :
    read? stack ⟨level, [p]⟩ = some (⟨c, level⟩ :: stack) := by
  unfold read?
  rw [role?_of_opens h]
  exact if_pos (isInside_iff.2 hstack)

/-- A line that closes what is on top takes it off. -/
theorem read?_of_closes (h : p.closes? = some c) (hstack : ∀ o ∈ stack, o.level < level) :
    read? (⟨c, level⟩ :: stack) ⟨level, [p]⟩ = some stack := by
  unfold read?
  rw [role?_of_closes h]
  exact if_pos ⟨rfl, isInside_iff.2 hstack⟩

end Line

/-! ## Lines that nest -/

/-- **Lines that nest**, none of them less far in than a level. -/
inductive Nested : Nat → List Line → Prop where
  | nil {k : Nat} : Nested k []
  | contained {k : Nat} {l : Line} {ls : List Line} :
    l.isContained = true → k ≤ l.level → Nested k ls → Nested k (l :: ls)
  | around {k j : Nat} {p q : Piece} {c : Construct} {inner ls : List Line} :
    p.opens? = some c → q.closes? = some c → k ≤ j → Nested (j + 1) inner → Nested k ls →
    Nested k (⟨j, [p]⟩ :: (inner ++ ⟨j, [q]⟩ :: ls))

namespace Nested

variable {k : Nat} {ls ms : List Line}

/-- Lines that nest, behind lines that nest. -/
theorem append (h : Nested k ls) (hms : Nested k ms) : Nested k (ls ++ ms) := by
  induction h with
  | nil => exact hms
  | contained hl hk _ ih => exact contained hl hk (ih hms)
  | around hp hq hk hinner _ _ ih =>
    rw [List.cons_append, List.append_assoc]
    exact around hp hq hk hinner (ih hms)

/-- Lines that nest, for each of some things. -/
theorem flatMap {α : Type} {xs : List α} {f : α → List Line} (h : ∀ x ∈ xs, Nested k (f x)) :
    Nested k (xs.flatMap f) := by
  induction xs with
  | nil => exact nil
  | cons x xs ih =>
    obtain ⟨hx, hxs⟩ := List.forall_mem_cons.1 h
    rw [List.flatMap_cons]
    exact hx.append (ih hxs)

/-- Lines that are all contained. -/
theorem of_contained (h : ∀ l ∈ ls, l.isContained = true ∧ k ≤ l.level) : Nested k ls := by
  induction ls with
  | nil => exact nil
  | cons l ls ih =>
    obtain ⟨⟨hl, hk⟩, hls⟩ := List.forall_mem_cons.1 h
    exact contained hl hk (ih hls)

/-- Lines further in. -/
theorem deeper (h : Nested k ls) (j : Nat) : Nested (k + j) (ls.map (Line.deeper j)) := by
  induction h with
  | nil => exact nil
  | contained hl hk _ ih => exact contained hl (Nat.add_le_add_right hk j) ih
  | around hp hq hk _ _ ihinner ih =>
    rw [List.map_cons, List.map_append, List.map_cons]
    refine around hp hq (Nat.add_le_add_right hk j) ?_ ih
    rw [Nat.add_right_comm]
    exact ihinner

end Nested

/-- **Over lines that nest** the reader leaves the stack as it was, if they are further in than all
that is open around them. -/
theorem readLines?_of_nested {k : Nat} {ls : List Line} (h : Nested k ls) {stack : List Opened}
    (hstack : ∀ o ∈ stack, o.level < k) : readLines? stack ls = some stack := by
  induction h generalizing stack with
  | nil => rfl
  | @contained k l ls hl hk _ ih =>
    have hinside : ∀ o ∈ stack, o.level < l.level := fun o ho => Nat.lt_of_lt_of_le (hstack o ho) hk
    rw [readLines?_cons, Line.read?_of_contained hl hinside, Option.bind_some, ih hstack]
  | @around k j p q c inner ls hp hq hk _ _ ihinner ih =>
    have hinside : ∀ o ∈ stack, o.level < j := fun o ho => Nat.lt_of_lt_of_le (hstack o ho) hk
    -- within the construct its own level is on the stack as well
    have hopened : ∀ o ∈ (⟨c, j⟩ :: stack : List Opened), o.level < j + 1 :=
      List.forall_mem_cons.2 ⟨Nat.lt_succ_self j, fun o ho => Nat.lt_succ_of_lt (hinside o ho)⟩
    rw [readLines?_cons, Line.read?_of_opens hp hinside, Option.bind_some, readLines?_append,
      ihinner hopened, Option.bind_some, readLines?_cons, Line.read?_of_closes hq hinside,
      Option.bind_some, ih hstack]

example : readLines? [] [⟨0, [.opening "ul" []]⟩, ⟨1, [.closing "li"]⟩, ⟨0, [.closing "ul"]⟩] = none := by
  decide

end PageBuilder.Markup
