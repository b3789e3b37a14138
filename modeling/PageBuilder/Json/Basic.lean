/-
  JSON values.

  A whole number in the range of 64-bit words stays a whole number and is never equal to a binary64
  number; an object keeps the order in which its keys first came.

  Program:        `same` — equality of values as the application means it.
  Specification:  objects compare as finite maps, the order of their keys aside; everything else
                  compares by position, numbers by value within their own kind.
-/
import PageBuilder.Binary64.Text
import PageBuilder.Entries

namespace PageBuilder

/-- A JSON number: a whole number in `[-2 ^ 63, 2 ^ 64)`, or a binary64 number. -/
inductive Json.Number where
  | whole (i : Int)
  | binary (x : Binary64)
deriving DecidableEq, Repr

/-- A JSON value. -/
inductive Json where
  | null
  | bool (b : Bool)
  | number (n : Json.Number)
  | string (s : String)
  | array (items : List Json)
  | object (fields : List (String × Json))
deriving Repr, Inhabited

/-! ## Identity of values

  Structural equality, which `same` below is coarser than. -/

mutual
def Json.decEq : (a b : Json) → Decidable (a = b)
  | .null, .null => isTrue rfl
  | .bool a, .bool b => decidable_of_iff (a = b) (by simp)
  | .number a, .number b => decidable_of_iff (a = b) (by simp)
  | .string a, .string b => decidable_of_iff (a = b) (by simp)
  | .array xs, .array ys =>
    match Json.decEqItems xs ys with
    | isTrue h => isTrue (by rw [h])
    | isFalse h => isFalse (by simpa using h)
  | .object fs, .object gs =>
    match Json.decEqFields fs gs with
    | isTrue h => isTrue (by rw [h])
    | isFalse h => isFalse (by simpa using h)
  | .null, .bool _ | .null, .number _ | .null, .string _ | .null, .array _ | .null, .object _
  | .bool _, .null | .bool _, .number _ | .bool _, .string _ | .bool _, .array _ | .bool _, .object _
  | .number _, .null | .number _, .bool _ | .number _, .string _ | .number _, .array _
  | .number _, .object _
  | .string _, .null | .string _, .bool _ | .string _, .number _ | .string _, .array _
  | .string _, .object _
  | .array _, .null | .array _, .bool _ | .array _, .number _ | .array _, .string _
  | .array _, .object _
  | .object _, .null | .object _, .bool _ | .object _, .number _ | .object _, .string _
  | .object _, .array _ => isFalse (by simp)

def Json.decEqItems : (xs ys : List Json) → Decidable (xs = ys)
  | [], [] => isTrue rfl
  | [], _ :: _ => isFalse (by simp)
  | _ :: _, [] => isFalse (by simp)
  | x :: xs, y :: ys =>
    match Json.decEq x y, Json.decEqItems xs ys with
    | isTrue h, isTrue hs => isTrue (by rw [h, hs])
    | isFalse h, _ => isFalse fun e => h (List.cons.inj e).1
    | _, isFalse hs => isFalse fun e => hs (List.cons.inj e).2

def Json.decEqFields : (fs gs : List (String × Json)) → Decidable (fs = gs)
  | [], [] => isTrue rfl
  | [], _ :: _ => isFalse (by simp)
  | _ :: _, [] => isFalse (by simp)
  | (k, x) :: fs, (l, y) :: gs =>
    if hk : k = l then
      match Json.decEq x y, Json.decEqFields fs gs with
      | isTrue h, isTrue hs => isTrue (by rw [hk, h, hs])
      | isFalse h, _ => isFalse fun e => h (Prod.mk.inj (List.cons.inj e).1).2
      | _, isFalse hs => isFalse fun e => hs (List.cons.inj e).2
    else isFalse fun e => hk (Prod.mk.inj (List.cons.inj e).1).1
end

instance : DecidableEq Json := Json.decEq

/-- The fields of an object, in order. -/
abbrev Json.Fields := Entries String Json

/-! ## Numbers -/

namespace Json.Number

/-- Numbers of 64 bits: `2 ^ 64`. -/
def wordSize : Nat := 18446744073709551616

/-- Half of them: `2 ^ 63`. -/
def halfWord : Nat := 9223372036854775808

/-- Whole numbers a JSON number can hold as such. -/
def inRange (i : Int) : Bool := -(halfWord : Int) ≤ i && i < (wordSize : Int)

/-- The number as a binary64 one, rounded if need be. -/
def toBinary64 : Number → Binary64
  | .whole i => Binary64.ofInt i
  | .binary x => x

/-- Equal numbers of one kind. -/
def same : Number → Number → Bool
  | .whole i, .whole j => i == j
  | .binary x, .binary y => x.same y
  | _, _ => false

/-- A number as text; what is not finite has none. -/
def text? : Number → Option (List Char)
  | .whole i => some (if i < 0 then '-' :: Binary64.decimalDigits i.natAbs
      else Binary64.decimalDigits i.natAbs)
  | .binary x => x.text?

end Json.Number

namespace Json

/-- A binary64 number as a value; what is not finite is `null`. -/
def ofBinary64 : Binary64 → Json
  | .finite n u => .number (.binary (.finite n u))
  | _ => .null

def ofNat (n : Nat) : Json := .number (.whole n)

def isNull : Json → Bool
  | .null => true
  | _ => false

def string? : Json → Option String
  | .string s => some s
  | _ => none

/-- The fields, of an object only. -/
def fields? : Json → Option Fields
  | .object fs => some fs
  | _ => none

/-- The value under a key, of an object only. -/
def field? (v : Json) (k : String) : Option Json := v.fields?.bind (Entries.get? · k)

/-- The item at a position, of an array only. -/
def item? (v : Json) (i : Nat) : Option Json :=
  match v with
  | .array xs => xs[i]?
  | _ => none

/-! ## Equality of values -/

mutual
/-- **The equality**: objects as maps, all else by position. -/
def same : Json → Json → Bool
  | .null, .null => true
  | .bool a, .bool b => a == b
  | .number a, .number b => a.same b
  | .string a, .string b => a == b
  | .array xs, .array ys => sameItems xs ys
  | .object fs, .object gs => fs.length == gs.length && sameFields fs gs
  | _, _ => false

/-- Equal item by item. -/
def sameItems : List Json → List Json → Bool
  | [], [] => true
  | x :: xs, y :: ys => same x y && sameItems xs ys
  | _, _ => false

/-- Every field on the left has an equal one on the right. -/
def sameFields : List (String × Json) → List (String × Json) → Bool
  | [], _ => true
  | (k, v) :: r, gs =>
    (match Entries.get? gs k with
      | some w => same v w
      | none => false) && sameFields r gs
end

/-! ## Depth

  Only arrays and objects nest. -/

mutual
/-- Arrays and objects around the deepest value, the value itself included. -/
def depth : Json → Nat
  | .array xs => depthItems xs + 1
  | .object fs => depthFields fs + 1
  | _ => 0

def depthItems : List Json → Nat
  | [] => 0
  | x :: xs => max (depth x) (depthItems xs)

def depthFields : List (String × Json) → Nat
  | [] => 0
  | (_, v) :: r => max (depth v) (depthFields r)
end

example : same (.object [("a", .null), ("b", .bool true)])
    (.object [("b", .bool true), ("a", .null)]) = true := by decide
example : depth (.array [.null, .object [("a", .array [])]]) = 3 := by decide

end Json
end PageBuilder
