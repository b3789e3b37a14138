/-
  JSON text as it is spelled out, before a value is made of it.

  Program:        `Source.ofText? s` — the one tree a text spells, or nothing.
  Specification:  the grammar of RFC 8259, without a limit on nesting and without a range for
                  numbers: both belong to the values that are made of a tree, and a part that
                  nobody asks for is never made one.
  Crux:           the reader is a machine with an explicit STACK of open brackets, one step per
                  token, so it is a plain recursion on the text, however deep the text nests.
-/
import PageBuilder.Json.Basic

namespace PageBuilder.Json

/-- A number as spelled. -/
structure Literal where
  negative : Bool
  whole : List Char
  /-- Digits behind the point. -/
  fraction : Option (List Char)
  exponent : Option Int
deriving DecidableEq, Repr

/-- A text as spelled.  A string holds `none` when one of its escapes is half a surrogate pair: such
a string may be passed over, but it is no string. -/
inductive Source where
  | null
  | bool (b : Bool)
  | number (n : Literal)
  | string (s : Option String)
  | array (items : List Source)
  | object (fields : List (Option String × Source))
deriving Inhabited

/-! ## Tokens -/

inductive Token where
  | openArray
  | closeArray
  | openObject
  | closeObject
  | comma
  | colon
  | null
  | bool (b : Bool)
  | number (n : Literal)
  | string (s : Option String)

/-- The white space of JSON. -/
def isSpace (c : Char) : Bool := c == ' ' || c == '\n' || c == '\r' || c == '\t'

/-- Value of a hexadecimal digit of either case. -/
def hexValue? (c : Char) : Option Nat :=
  if c.isDigit then some (c.toNat - '0'.toNat)
  else if 'a' ≤ c ∧ c ≤ 'f' then some (c.toNat - 'a'.toNat + 10)
  else if 'A' ≤ c ∧ c ≤ 'F' then some (c.toNat - 'A'.toNat + 10)
  else none

/-- Value of four hexadecimal digits. -/
def hexValue4? (a b c d : Char) : Option Nat := do
  let a ← hexValue? a
  let b ← hexValue? b
  let c ← hexValue? c
  let d ← hexValue? d
  some (((a * 16 + b) * 16 + c) * 16 + d)

/-- What a letter after a backslash stands for. -/
def simpleEscape? : Char → Option Char
  | '"' => some '"'
  | '\\' => some '\\'
  | '/' => some '/'
  | 'b' => some '\x08'
  | 'f' => some '\x0c'
  | 'n' => some '\n'
  | 'r' => some '\r'
  | 't' => some '\t'
  | _ => none

/-- The characters of a string so far, the last first, and the first half of a surrogate pair that
waits for its second half. -/
structure Spelled where
  chars : Option (List Char)
  half : Option Nat

namespace Spelled

/-- A plain character; it leaves a waiting half alone for good. -/
def char (s : Spelled) (c : Char) : Spelled :=
  match s.half with
  | none => ⟨s.chars.map (c :: ·), none⟩
  | some _ => ⟨none, none⟩

/-- A sixteen-bit unit. -/
def unit (s : Spelled) (n : Nat) : Spelled :=
  match s.half with
  | none =>
    if 0xD800 ≤ n ∧ n < 0xDC00 then ⟨s.chars, some n⟩
    else if 0xDC00 ≤ n ∧ n < 0xE000 then ⟨none, none⟩
    else ⟨s.chars.map (Char.ofNat n :: ·), none⟩
  | some h =>
    if 0xDC00 ≤ n ∧ n < 0xE000 then
      ⟨s.chars.map (Char.ofNat (0x10000 + (h - 0xD800) * 0x400 + (n - 0xDC00)) :: ·), none⟩
    else ⟨none, none⟩

/-- The finished string. -/
def close (s : Spelled) : Option String :=
  match s.half with
  | none => s.chars.map fun cs => String.ofList cs.reverse
  | some _ => none

end Spelled

/-- Read a string up to its closing quote. -/
def scanString : Spelled → List Char → Option (Option String × List Char)
  | _, [] => none
  | s, '"' :: r => some (s.close, r)
  | s, '\\' :: 'u' :: a :: b :: c :: d :: r =>
    match hexValue4? a b c d with
    | some n => scanString (s.unit n) r
    | none => none
  | s, '\\' :: e :: r =>
    match simpleEscape? e with
    | some c => scanString (s.char c) r
    | none => none
  | s, c :: r => if c.toNat < 32 || c == '\\' then none else scanString (s.char c) r

/-- The digits of an exponent behind its `e`. -/
def scanExponent? (cs : List Char) : Option (Int × List Char) :=
  let (n, r) := Binary64.takeSign cs
  let ds := r.takeWhile Char.isDigit
  if ds.isEmpty then none
  else
    let e : Int := Binary64.numeral 0 ds
    some (if n then -e else e, r.dropWhile Char.isDigit)

/-- The end of a number: its exponent, if it has one. -/
def scanTail? (n : Literal) : List Char → Option (Literal × List Char)
  | c :: r =>
    if c == 'e' || c == 'E' then
      (scanExponent? r).map fun (e, r) => (⟨n.negative, n.whole, n.fraction, some e⟩, r)
    else some (n, c :: r)
  | [] => some (n, [])

/-- An unsigned number: a zero alone or digits that start with none, then a fraction of at least
one digit, then an exponent. -/
def scanUnsigned? (negative : Bool) (cs : List Char) : Option (Literal × List Char) :=
  let whole := cs.takeWhile Char.isDigit
  if whole.isEmpty || (whole.head? == some '0' && 1 < whole.length) then none
  else
    match cs.dropWhile Char.isDigit with
    | '.' :: r =>
      let ds := r.takeWhile Char.isDigit
      if ds.isEmpty then none
      else scanTail? ⟨negative, whole, some ds, none⟩ (r.dropWhile Char.isDigit)
    | r => scanTail? ⟨negative, whole, none, none⟩ r

/-- The first token of a text that starts with none of the white space, and the rest. -/
def scan? : List Char → Option (Token × List Char)
  | '[' :: r => some (.openArray, r)
  | ']' :: r => some (.closeArray, r)
  | '{' :: r => some (.openObject, r)
  | '}' :: r => some (.closeObject, r)
  | ',' :: r => some (.comma, r)
  | ':' :: r => some (.colon, r)
  | '"' :: r => (scanString ⟨some [], none⟩ r).map fun (s, r) => (.string s, r)
  | 'n' :: 'u' :: 'l' :: 'l' :: r => some (.null, r)
  | 't' :: 'r' :: 'u' :: 'e' :: r => some (.bool true, r)
  | 'f' :: 'a' :: 'l' :: 's' :: 'e' :: r => some (.bool false, r)
  | '-' :: r => (scanUnsigned? true r).map fun (n, r) => (.number n, r)
  | cs => (scanUnsigned? false cs).map fun (n, r) => (.number n, r)

/-! ## The machine -/

/-- An open bracket: the items before, the last first, and in an object the key whose value is
awaited. -/
inductive Frame where
  | items (done : List Source)
  | fields (done : List (Option String × Source)) (key : Option String)

/-- What may come next, inside the brackets that are open. -/
inductive Reading where
  /-- A value. -/
  | value (stack : List Frame)
  /-- A value, or the end of an array that has none yet. -/
  | firstItem (stack : List Frame)
  /-- A comma or the end of an array. -/
  | afterItem (done : List Source) (stack : List Frame)
  /-- A key, or the end of an object that has none yet. -/
  | firstKey (stack : List Frame)
  /-- A key. -/
  | nextKey (done : List (Option String × Source)) (stack : List Frame)
  /-- The colon behind a key. -/
  | colon (done : List (Option String × Source)) (key : Option String) (stack : List Frame)
  /-- A comma or the end of an object. -/
  | afterField (done : List (Option String × Source)) (stack : List Frame)
  /-- Nothing more. -/
  | finished (v : Source)

namespace Reading

/-- Hand a finished value to the innermost open bracket. -/
def supply (v : Source) : List Frame → Reading
  | [] => .finished v
  | .items done :: stack => .afterItem (v :: done) stack
  | .fields done key :: stack => .afterField ((key, v) :: done) stack

/-- A token where a value may start. -/
def startValue? (stack : List Frame) : Token → Option Reading
  | .null => some (supply .null stack)
  | .bool b => some (supply (.bool b) stack)
  | .number n => some (supply (.number n) stack)
  | .string s => some (supply (.string s) stack)
  | .openArray => some (.firstItem stack)
  | .openObject => some (.firstKey stack)
  | _ => none

/-- One token. -/
def step? : Reading → Token → Option Reading
  | .value stack, t => startValue? stack t
  | .firstItem stack, .closeArray => some (supply (.array []) stack)
  | .firstItem stack, t => startValue? (.items [] :: stack) t
  | .afterItem done stack, .comma => some (.value (.items done :: stack))
  | .afterItem done stack, .closeArray => some (supply (.array done.reverse) stack)
  | .firstKey stack, .closeObject => some (supply (.object []) stack)
  | .firstKey stack, .string k => some (.colon [] k stack)
  | .nextKey done stack, .string k => some (.colon done k stack)
  | .colon done k stack, .colon => some (.value (.fields done k :: stack))
  | .afterField done stack, .comma => some (.nextKey done stack)
  | .afterField done stack, .closeObject => some (supply (.object done.reverse) stack)
  | _, _ => none

end Reading

/-! ## Every token takes characters -/

theorem scanString_length {s : Spelled} {cs : List Char} {t : Option String} {r : List Char}
    (h : scanString s cs = some (t, r)) : r.length < cs.length := by
  fun_induction scanString s cs with
  | case1 => simp at h
  | case2 s r' => simp at h; simp [h.2]
  | case3 s a b c d r' n hn ih => have := ih h; simp; omega
  | case4 => simp at h
  | case5 s e r' hne c hc ih => have := ih h; simp; omega
  | case6 => simp at h
  | case7 => simp at h
  | case8 s c r' _ _ _ _ ih => have := ih h; simp; omega

theorem scanExponent?_length {cs : List Char} {e : Int} {r : List Char}
    (h : scanExponent? cs = some (e, r)) : r.length ≤ cs.length := by
  have sign : (Binary64.takeSign cs).2.length ≤ cs.length := by
    unfold Binary64.takeSign; split <;> simp
  have digits := (List.dropWhile_suffix (l := (Binary64.takeSign cs).2) Char.isDigit).length_le
  simp only [scanExponent?] at h
  split at h
  · simp at h
  · simp at h; rw [← h.2]; omega

theorem scanTail?_length {n : Literal} {cs : List Char} {m : Literal} {r : List Char}
    (h : scanTail? n cs = some (m, r)) : r.length ≤ cs.length := by
  unfold scanTail? at h
  split at h
  · next c r' =>
    split at h
    · obtain ⟨⟨e, r''⟩, he, hr⟩ := Option.map_eq_some_iff.1 h
      have := scanExponent?_length he
      simp at hr; simp [← hr.2]; omega
    · simp at h; simp [← h.2]
  · simp at h; simp [← h.2]

theorem scanUnsigned?_length {b : Bool} {cs : List Char} {m : Literal} {r : List Char}
    (h : scanUnsigned? b cs = some (m, r)) : r.length < cs.length := by
  have whole : (cs.takeWhile Char.isDigit).length + (cs.dropWhile Char.isDigit).length
      = cs.length := by
    rw [← List.length_append, List.takeWhile_append_dropWhile]
  simp only [scanUnsigned?] at h
  split at h
  · simp at h
  · next hw =>
    have pos : 0 < (cs.takeWhile Char.isDigit).length := by
      cases hc : cs.takeWhile Char.isDigit with
      | nil => simp [hc] at hw
      | cons => simp
    split at h
    · next r' hr =>
      split at h
      · simp at h
      · have := scanTail?_length h
        have := (List.dropWhile_suffix (l := r') Char.isDigit).length_le
        rw [hr] at whole; simp at whole; omega
    · have := scanTail?_length h
      omega

theorem scan?_length {cs : List Char} {t : Token} {r : List Char}
    (h : scan? cs = some (t, r)) : r.length < cs.length := by
  have string : ∀ {cs'}, (scanString ⟨some [], none⟩ cs').map
      (fun (s, r) => (Token.string s, r)) = some (t, r) → r.length < cs'.length := by
    intro cs' h
    obtain ⟨⟨s, r'⟩, hs, he⟩ := Option.map_eq_some_iff.1 h
    have := scanString_length hs
    simp at he; rw [← he.2]; exact this
  have number : ∀ {b cs'}, (scanUnsigned? b cs').map
      (fun (n, r) => (Token.number n, r)) = some (t, r) → r.length < cs'.length := by
    intro b cs' h
    obtain ⟨⟨n, r'⟩, hs, he⟩ := Option.map_eq_some_iff.1 h
    have := scanUnsigned?_length hs
    simp at he; rw [← he.2]; exact this
  unfold scan? at h
  split at h
  case h_7 => have := string h; simp; omega
  case h_11 => have := number h; simp; omega
  case h_12 => exact number h
  all_goals simp at h; simp [← h.2]; try omega

/-! ## The reader -/

/-- Skip white space, take a token, step; the text must end when the value does. -/
def Reading.run? (s : Reading) (cs : List Char) : Option Source :=
  match _h : cs.dropWhile isSpace with
  | [] =>
    match s with
    | .finished v => some v
    | _ => none
  | c :: r =>
    match _ht : scan? (c :: r) with
    | none => none
    | some (t, rest) =>
      match s.step? t with
      | none => none
      | some s' => run? s' rest
termination_by cs.length
decreasing_by
  have := scan?_length _ht
  have := (List.dropWhile_suffix (l := cs) isSpace).length_le
  rw [_h] at this
  omega

/-- **The reader**: the tree a text spells. -/
def Source.ofText? (s : String) : Option Source := Reading.run? (.value []) s.toList

end PageBuilder.Json
