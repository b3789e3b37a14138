/-
  Copies of a tree under new ids.

  Program:        `relabel? next n s` — a copy whose ids are drawn from a source with a state.
  Specification:  the source is asked once per node, in the order of the walk, with the node as it
                  was; shape, props and behavior stay.  A source may run dry, and then there is no
                  copy.
-/
import PageBuilder.Node.Walk

namespace PageBuilder.Node

variable {σ : Type}

mutual
/-- **The copy**. -/
def relabel? (next : Node → σ → Option (String × σ)) : Node → σ → Option (Node × σ)
  | ⟨i, p, none, b⟩, s =>
    (next ⟨i, p, none, b⟩ s).map fun (id, s) => (⟨id, p, none, b⟩, s)
  | ⟨i, p, some cs, b⟩, s =>
    match next ⟨i, p, some cs, b⟩ s with
    | none => none
    | some (id, s) => (relabelAll? next cs s).map fun (cs, s) => (⟨id, p, some cs, b⟩, s)

def relabelAll? (next : Node → σ → Option (String × σ)) : List Node → σ → Option (List Node × σ)
  | [], s => some ([], s)
  | n :: ns, s =>
    match relabel? next n s with
    | none => none
    | some (m, s) => (relabelAll? next ns s).map fun (ms, s) => (m :: ms, s)
end

/-- Prefix of a generated id: the lowercase type name. -/
def idPrefix (n : Node) : String := Text.lowercase n.props.typeName

/-! ## Generated ids

  What makes a generated id unlike any other is its suffix.  Suffixes are drawn from a supply: a list
  of those still to come, which may hold anything. -/

/-- Suffixes still to come. -/
abbrev Supply := List String

/-- An id of a prefix and a suffix. -/
def generated (idPrefix suffix : String) : String := idPrefix ++ "_" ++ suffix

/-- Draw ids of a prefix until one is not taken. -/
def drawFresh? (idPrefix : String) (taken : List String) : Supply → Option (String × Supply)
  | [] => none
  | s :: rest =>
    let id := generated idPrefix s
    if taken.contains id then drawFresh? idPrefix taken rest else some (id, rest)

/-- Draw an id for a node that is neither taken nor drawn before. -/
def drawDistinct? (n : Node) (s : List String × Supply) : Option (String × List String × Supply) :=
  (drawFresh? n.idPrefix s.1 s.2).map fun (id, rest) => (id, id :: s.1, rest)

/-- A copy under generated ids that differ from each other and from those taken. -/
def freshCopy? (taken : List String) (n : Node) (supply : Supply) : Option (Node × Supply) :=
  (relabel? drawDistinct? n (taken, supply)).map fun (m, s) => (m, s.2)

end PageBuilder.Node
