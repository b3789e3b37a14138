/-
  Handles to variables.

  Several parts of a program may hold the same variables, and see each other's writes.  What they
  hold is a HANDLE: a number that stands for one of the stores.

  Programs:       `Stores.read`, `Stores.step`.
  Specification:  a write through a handle shows through exactly the handles of the same store; a
                  store that is made of a snapshot shares nothing with where the snapshot was taken.
-/
import PageBuilder.Variables.Basic

namespace PageBuilder

/-- Stores, and for each handle the position of its store. -/
structure Stores where
  stores : List Variables
  handles : List Nat
deriving DecidableEq

namespace Stores

/-- No store and no handle. -/
def empty : Stores := ⟨[], []⟩

/-- The variables of the store at a position. -/
def store (s : Stores) (i : Nat) : Variables := s.stores[i]?.getD []

/-- The position of a handle's store; a handle that was never given out stands behind all stores. -/
def place (s : Stores) (h : Nat) : Nat := s.handles[h]?.getD s.stores.length

/-- **The variables a handle sees**. -/
def read (s : Stores) (h : Nat) : Variables := s.store (s.place h)

/-- Whether two handles see the same store. -/
def sameStore (s : Stores) (g h : Nat) : Bool := s.place g == s.place h

/-- What is done with stores and handles. -/
inductive Step where
  /-- Write through a handle. -/
  | write (h : Nat) (w : Variables.Write)
  /-- Make a store of a snapshot, with a handle of its own. -/
  | make (snapshot : Json.Fields)
  /-- One more handle to the same store. -/
  | share (h : Nat)
  /-- A store of its own, with what a handle sees now. -/
  | fork (h : Nat)
deriving DecidableEq

/-- Add a store and a handle to it. -/
def add (s : Stores) (vs : Variables) : Stores :=
  ⟨s.stores ++ [vs], s.handles ++ [s.stores.length]⟩

/-- **One step**. -/
def step (s : Stores) : Step → Stores
  | .write h w => { s with stores := s.stores.modify (s.place h) w.apply }
  | .make snapshot => s.add (Variables.ofSnapshot snapshot)
  | .share h => { s with handles := s.handles ++ [s.place h] }
  | .fork h => s.add (Variables.ofSnapshot (s.read h))

/-- Steps, one after the other. -/
def run (s : Stores) (steps : List Step) : Stores := steps.foldl step s

example : (empty.run [.make [], .share 0, .write 1 (.set "a" .null)]).read 0 = [("a", .null)] := by
  decide
example : (empty.run [.make [], .fork 0, .write 1 (.set "a" .null)]).read 0 = [] := by decide

end Stores
end PageBuilder
