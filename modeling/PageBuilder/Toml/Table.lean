/-
  Tables of a configuration text.

  Program:        `Table.open?`, `Table.assignUnder?`.
  Specification:  a key is written once.  A table comes to be in one of four ways — by a header, on
                  the way to one, by a dotted key, or in braces — and the way decides what may still
                  be added to it: a table in braces is complete; one with a header takes no dotted
                  keys from outside; one made by dotted keys takes no header of its own.
-/
import PageBuilder.Entries

namespace PageBuilder.Toml

/-- How a table came to be. -/
inductive Origin where
  /-- It has a header, or is the whole text. -/
  | header
  /-- It lies on the way to a header. -/
  | path
  /-- It lies on the way to a dotted key. -/
  | dotted
  /-- It stands in braces. -/
  | braces
deriving DecidableEq, Repr

/-- A value that is no table. -/
inductive Scalar where
  | string (s : String)
  | integer (i : Int)
  | boolean (b : Bool)
  /-- A number with a fraction or an exponent, or one that is not finite. -/
  | float
deriving DecidableEq, Repr

/-- What a key holds. -/
inductive Item where
  | scalar (v : Scalar)
  | table (o : Origin) (entries : List (String × Item))
deriving Repr

/-- The entries of a table. -/
abbrev Table := List (String × Item)

namespace Table

/-- Whether a dotted key may go through a table. -/
def takesDotted : Origin → Bool
  | .path => true
  | .dotted => true
  | _ => false

/-- The origin and the entries under a key: those that are there, if a path may go through them, or
an empty table that is new. -/
def enter? (new : Origin) (t : Table) (k : String) : Option (Origin × Table) :=
  match Entries.get? t k with
  | none => some (new, [])
  | some (.table .braces _) => none
  | some (.table o es) => if new = .dotted ∧ !takesDotted o then none else some (o, es)
  | some (.scalar _) => none

/-- Change the table at the end of a path; tables that are missing on the way come to be. -/
def change? (new : Origin) (f : Origin → Table → Option Table) :
    List String → Origin → Table → Option Table
  | [], o, t => f o t
  | k :: ks, _, t => do
    let (o, es) ← enter? new t k
    let es ← change? new f ks o es
    some (Entries.put t k (.table o es))

/-- Write a key of a table; a table reached by a dotted key is one made by dotted keys. -/
def insert? (reached : Bool) (k : String) (v : Item) (o : Origin) (t : Table) : Option Table :=
  if Entries.contains t k || (reached && o != .dotted) then none else some (t ++ [(k, v)])

/-- **Write a dotted key**, given as the keys before the last one, and the last one. -/
def assign? (path : List String) (k : String) (v : Item) (t : Table) : Option Table :=
  change? .dotted (insert? (!path.isEmpty) k v) path .header t

/-- The entries a header starts with: none, or those of a table that lies on the way to a header. -/
def opened? (k : String) (_ : Origin) (t : Table) : Option Table :=
  match Entries.get? t k with
  | none => some (t ++ [(k, .table .header [])])
  | some (.table .path es) => some (Entries.put t k (.table .header es))
  | some _ => none

/-- **Start a header**. -/
def open? (path : List String) (k : String) (t : Table) : Option Table :=
  change? .path (opened? k) path .header t

/-- **Write a dotted key under a header** that was started. -/
def assignUnder? (header path : List String) (k : String) (v : Item) (t : Table) : Option Table :=
  change? .path (fun _ es => assign? path k v es) header .header t

end Table
end PageBuilder.Toml
