/-
  Where the lines of a node stand in the lines of its tree.

  Programs:       `front`, `back` — the lines in front of the block of the node at a position, and those
                  behind it; `start` — the line at which the block starts.
  Specification:  `fragment_layout` — one block for every node, nested as the nodes are and in the order
                  of the walk; a tree further in gives the same lines further in; and trees that
                  differ at one position have the same lines in front of the block there and behind.
  Crux:           `fragment_of_children` — what a box writes around the blocks of its children depends
                  on its props alone, once it has any children at all; so the way to a position can be
                  walked down, and nothing off the way is looked at twice.
-/
import PageBuilder.Proofs.Export.Block
import PageBuilder.Proofs.Node.Locality

namespace PageBuilder

/-- What is under a shaped node is shaped. -/
theorem Node.shaped_of_at? {n m : Node} {p : List Nat} (hn : n.Shaped) (h : n.at? p = some m) :
    m.Shaped := by
  induction p generalizing n with
  | nil => exact Option.some.inj h ▸ hn
  | cons i p ih =>
    obtain ⟨c, hc, hm⟩ := exists_child_of_at? h
    exact ih ((shaped_iff.1 hn).2 c (List.mem_of_getElem? hc)) hm

namespace Export

open Markup Node

variable {d : Dialect} {level i : Nat} {n m a b c : Node} {p q : List Nat}

/-! ## Boxes -/

/-- The lines that a box writes in front of the blocks of its children. -/
def opening (d : Dialect) : Props → List Line
  | .known _ s => [openLine 0 "div" (styled [s.className.getD ""])]
  | .unknown t fs =>
    [openLine 0 "div" (placeholderAttributes d t fs), textElement 1 "span" [] (placeholderText t fs)]

/-- The line that it writes behind them. -/
def closing : List Line := [closeLine 0 "div"]

/-- A box with something in it writes its opening, what is inside further in, and its closing. -/
theorem block_of_inner (d : Dialect) (id : String) {p : Props} {inner : List Line}
    (hp : ∀ k, p.kind? = some k → k.isContainer = true) (hinner : inner ≠ []) :
    block d id p inner = opening d p ++ (inner.map (Line.deeper 1) ++ closing) := by
  cases inner with
  | nil => exact absurd rfl hinner
  | cons l ls =>
    cases p with
    | known k s =>
      rw [block, hp k rfl]
      rfl
    | unknown t fs => rfl

/-- A block has a line at least. -/
theorem block_ne_nil (d : Dialect) (id : String) (p : Props) (inner : List Line) :
    block d id p inner ≠ [] := by
  cases p with
  | known k s =>
    rw [block]
    cases hk : k.isContainer with
    | false => exact componentLines_ne_nil d id hk s
    | true => cases inner <;> exact List.cons_ne_nil _ _
  | unknown t fs => cases inner <;> exact List.cons_ne_nil _ _

theorem fragment_ne_nil (d : Dialect) (level : Nat) (n : Node) : fragment d level n ≠ [] := by
  rw [fragment, ne_eq, List.map_eq_nil_iff, lines_eq]
  exact block_ne_nil d n.id n.props _

/-- **A tree further in** gives the same lines, each as much further in. -/
theorem fragment_add (d : Dialect) (level k : Nat) (n : Node) :
    fragment d (level + k) n = (fragment d level n).map (Line.deeper k) := by
  rw [fragment, fragment, map_deeper_deeper, Nat.add_comm]

/-- A line as it is written. -/
def written (d : Dialect) (width : Nat) (l : Line) : String :=
  indentation width l.level ++ l.content d

/-- The text of a fragment is its lines, one below the other. -/
theorem fragmentText_eq (d : Dialect) (width level : Nat) (n : Node) :
    fragmentText d width level n
      = String.intercalate "\n" ((fragment d level n).map (written d width)) := by
  rw [fragmentText, write, writeLines, List.map_map]
  rfl

/-- A line further in is written with that much more in front of it. -/
theorem written_deeper (d : Dialect) (width k : Nat) (l : Line) :
    written d width (l.deeper k) = indentation width k ++ written d width l := by
  have hindent : indentation width (l.level + k) = indentation width k ++ indentation width l.level := by
    unfold indentation
    rw [← String.ofList_append, List.replicate_append_replicate, Nat.mul_add, Nat.add_comm]
  rw [written, written, ← String.append_assoc, ← hindent]
  rfl

/-- **A box with children**: the lines around their blocks depend on its props alone. -/
theorem fragment_of_children (hn : n.shell.Fits) (hchildren : n.childList ≠ []) (d : Dialect)
    (level : Nat) :
    fragment d level n = (opening d n.props).map (Line.deeper level)
      ++ (n.childList.flatMap (fragment d (level + 1)) ++ closing.map (Line.deeper level)) := by
  have hinner : n.childList.flatMap (lines d) ≠ [] := by
    obtain ⟨c, cs, hcs⟩ := List.exists_cons_of_ne_nil hchildren
    rw [hcs, List.flatMap_cons, lines_eq]
    exact List.append_ne_nil_of_left_ne_nil (block_ne_nil d c.id c.props _) _
  -- only a box has children in a shaped tree
  have hbox : ∀ k, n.props.kind? = some k → k.isContainer = true := by
    intro k hk
    by_contra hcontainer
    exact hchildren (childList_eq_nil hn hk (Bool.eq_false_iff.2 hcontainer))
  have hbelow : (n.childList.flatMap (lines d)).map (Line.deeper (level + 1))
      = n.childList.flatMap (fragment d (level + 1)) := List.map_flatMap
  rw [fragment, lines_eq, block_of_inner d n.id hbox hinner, List.map_append, List.map_append,
    map_deeper_deeper, hbelow]

/-! ## Around a position -/

/-- **The lines in front** of the block of the node at a position. -/
def front (d : Dialect) (level : Nat) : List Nat → Node → List Line
  | [], _ => []
  | i :: p, n => (opening d n.props).map (Line.deeper level)
      ++ ((n.childList.take i).flatMap (fragment d (level + 1))
        ++ (n.childList[i]?.map (front d (level + 1) p)).getD [])

/-- **The lines behind** it. -/
def back (d : Dialect) (level : Nat) : List Nat → Node → List Line
  | [], _ => []
  | i :: p, n => (n.childList[i]?.map (back d (level + 1) p)).getD []
      ++ ((n.childList.drop (i + 1)).flatMap (fragment d (level + 1))
        ++ closing.map (Line.deeper level))

/-- **The line at which a block starts**, counted from the first line of the tree. -/
def start (d : Dialect) (p : List Nat) (n : Node) : Nat := (front d 0 p n).length

theorem take_append_cons_drop {ns : List Node} (h : ns[i]? = some c) :
    ns = ns.take i ++ c :: ns.drop (i + 1) := by
  obtain ⟨hlt, rfl⟩ := List.getElem?_eq_some_iff.1 h
  rw [← List.drop_eq_getElem_cons hlt, List.take_append_drop]

/-- **The block of a node** stands whole between what is in front of it and what is behind. -/
theorem fragment_eq_front_back (hn : n.Shaped) (h : n.at? p = some m) (d : Dialect) (level : Nat) :
    fragment d level n = front d level p n ++ (fragment d (level + p.length) m ++ back d level p n) := by
  induction p generalizing n level with
  | nil =>
    obtain rfl : n = m := Option.some.inj h
    rw [front, back, List.append_nil, List.nil_append]
    rfl
  | cons i p ih =>
    obtain ⟨hfits, hbelow⟩ := shaped_iff.1 hn
    obtain ⟨c, hc, hm⟩ := exists_child_of_at? h
    have hmem : c ∈ n.childList := List.mem_of_getElem? hc
    have hchild := ih (hbelow c hmem) hm (level + 1)
    have hlevel : level + 1 + p.length = level + (i :: p).length := by
      rw [List.length_cons]
      omega
    rw [hlevel] at hchild
    -- the children in front of the way, the one on it, and those behind
    have hsplit : n.childList.flatMap (fragment d (level + 1))
        = (n.childList.take i).flatMap (fragment d (level + 1)) ++ (fragment d (level + 1) c
          ++ (n.childList.drop (i + 1)).flatMap (fragment d (level + 1))) := by
      rw [← List.flatMap_cons, ← List.flatMap_append, ← take_append_cons_drop hc]
    rw [fragment_of_children hfits (List.ne_nil_of_mem hmem), hsplit, hchild, front, back, hc]
    simp only [Option.map_some, Option.getD_some, List.append_assoc]

/-! ## Where blocks start -/

theorem length_fragment (d : Dialect) (level : Nat) (n : Node) :
    (fragment d level n).length = (lines d n).length := List.length_map _

theorem length_flatMap_fragment (d : Dialect) (level : Nat) (ns : List Node) :
    (ns.flatMap (fragment d level)).length = (ns.flatMap (lines d)).length := by
  rw [List.length_flatMap, List.length_flatMap]
  exact congrArg List.sum (List.map_congr_left fun n _ => length_fragment d level n)

/-- **A block starts behind the lines in front of it.** -/
theorem length_front (d : Dialect) (level : Nat) (p : List Nat) (n : Node) :
    (front d level p n).length = start d p n := by
  induction p generalizing level n with
  | nil => rfl
  | cons i p ih =>
    have hchild : ∀ l, ((n.childList[i]?.map (front d l p)).getD []).length
        = (n.childList[i]?.map (start d p)).getD 0 := by
      intro l
      cases n.childList[i]? with
      | none => rfl
      | some c => exact ih l c
    simp only [start, front, List.length_append, List.length_map, length_flatMap_fragment, hchild]

/-- **One step down.** -/
theorem start_cons (hc : n.childList[i]? = some c) (d : Dialect) (p : List Nat) :
    start d (i :: p) n = (opening d n.props).length
      + (((n.childList.take i).flatMap (lines d)).length + start d p c) := by
  rw [start, front, List.length_append, List.length_append, List.length_map,
    length_flatMap_fragment, hc, Option.map_some, Option.getD_some, length_front]

theorem start_append (h : n.at? p = some m) (d : Dialect) (q : List Nat) :
    start d (p ++ q) n = start d p n + start d q m := by
  induction p generalizing n with
  | nil =>
    obtain rfl : n = m := Option.some.inj h
    exact (Nat.zero_add _).symm
  | cons i p ih =>
    obtain ⟨c, hc, hm⟩ := exists_child_of_at? h
    rw [List.cons_append, start_cons hc, start_cons hc, ih hm]
    omega

/-- A block ends no later than the tree. -/
theorem start_add_le (hn : n.Shaped) (h : n.at? p = some m) (d : Dialect) :
    start d p n + (lines d m).length ≤ (lines d n).length := by
  have hlength := congrArg List.length (fragment_eq_front_back hn h d 0)
  rw [List.length_append, List.length_append, length_fragment, length_fragment, length_front]
    at hlength
  omega

theorem length_lines_pos (d : Dialect) (n : Node) : 0 < (lines d n).length := by
  rw [← length_fragment d 0]
  exact List.length_pos_iff.2 (fragment_ne_nil d 0 n)

theorem length_opening_pos (d : Dialect) (p : Props) : 0 < (opening d p).length := by
  cases p <;> exact Nat.succ_pos _

/-- **Children within their parent**: the block of a child starts behind the first line of the parent,
ends in front of its last one, and the block of the next child follows it at once. -/
theorem start_child (hn : n.Shaped) (hc : n.childList[i]? = some c) (d : Dialect) :
    0 < start d [i] n ∧ start d [i] n + (lines d c).length < (lines d n).length ∧
    ∀ next, n.childList[i + 1]? = some next →
      start d [i + 1] n = start d [i] n + (lines d c).length := by
  have hopening := length_opening_pos d n.props
  have hstart := start_cons hc d []
  have hnil : ∀ m, start d [] m = 0 := fun m => rfl
  rw [hnil] at hstart
  -- behind the opening, before the closing, and each child behind the last line of the one before
  refine ⟨by omega, ?_, fun next hnext => ?_⟩
  · obtain ⟨hfits, -⟩ := shaped_iff.1 hn
    have hlength := congrArg List.length
      (fragment_of_children hfits (List.ne_nil_of_mem (List.mem_of_getElem? hc)) d 0)
    rw [take_append_cons_drop hc, List.flatMap_append, List.flatMap_cons] at hlength
    simp only [List.length_append, List.length_map, length_flatMap_fragment, length_fragment]
      at hlength
    have hclosing : closing.length = 1 := rfl
    omega
  · obtain ⟨hlt, hget⟩ := List.getElem?_eq_some_iff.1 hc
    have htake : n.childList.take (i + 1) = n.childList.take i ++ [c] := by
      rw [List.take_succ_eq_append_getElem hlt, hget]
    rw [start_cons hnext, hnil, hstart, htake, List.flatMap_append, List.length_append,
      List.flatMap_singleton]
    omega

/-- The blocks of some children start one behind the other, none in front of the first. -/
theorem pairwise_start_from (before after : List Node) (hlist : n.childList = before ++ after)
    (hbelow : ∀ c ∈ n.childList, c.Shaped)
    (ih : ∀ c ∈ n.childList, (c.spots.map fun s => start d s.position c).Pairwise (· < ·)) :
    ((spotsFrom before.length after).map fun s => start d s.position n).Pairwise (· < ·) ∧
    ∀ s ∈ spotsFrom before.length after,
      (opening d n.props).length + (before.flatMap (lines d)).length ≤ start d s.position n := by
  induction after generalizing before with
  | nil => exact ⟨List.Pairwise.nil, nofun⟩
  | cons c after ihafter =>
    have hc : n.childList[before.length]? = some c := by
      rw [hlist, List.getElem?_append_right (Nat.le_refl _), Nat.sub_self]
      rfl
    have hmem : c ∈ n.childList := List.mem_of_getElem? hc
    have htake : n.childList.take before.length = before := by rw [hlist, List.take_left]
    have hstart : ∀ s : Spot, start d (s.under before.length).position n
        = (opening d n.props).length + ((before.flatMap (lines d)).length + start d s.position c) := by
      intro s
      rw [Spot.under, start_cons hc, htake]
    obtain ⟨hrest, hlater⟩ := ihafter (before ++ [c]) (by rw [hlist, List.append_assoc]; rfl)
    rw [List.length_append, List.length_singleton] at hrest hlater
    rw [List.flatMap_append, List.length_append, List.flatMap_singleton] at hlater
    rw [spotsFrom, List.map_append, List.map_map]
    refine ⟨List.pairwise_append.2 ⟨?_, hrest, ?_⟩, fun s hs => ?_⟩
    · refine List.pairwise_map.2 ((List.pairwise_map.1 (ih c hmem)).imp fun {s t} hst => ?_)
      show start d (s.under before.length).position n < start d (t.under before.length).position n
      rw [hstart, hstart]
      omega
    · -- what is under the child starts within its block, and the others start behind that
      intro x hx y hy
      obtain ⟨s, hs, rfl⟩ := List.mem_map.1 hx
      obtain ⟨t, ht, rfl⟩ := List.mem_map.1 hy
      have hwithin := start_add_le (hbelow c hmem) (at?_of_mem_spots c s hs) d
      have hpos := length_lines_pos d s.node
      have hbehind := hlater t ht
      show start d (s.under before.length).position n < start d t.position n
      rw [hstart]
      omega
    · rcases List.mem_append.1 hs with hs | hs
      · obtain ⟨t, -, rfl⟩ := List.mem_map.1 hs
        rw [hstart]
        omega
      · have hbehind := hlater s hs
        omega

/-- **Blocks start one behind the other**, in the order of the walk. -/
theorem pairwise_start (d : Dialect) : ∀ n : Node, n.Shaped →
    (n.spots.map fun s => start d s.position n).Pairwise (· < ·) := by
  refine Node.induct fun n ih hn => ?_
  obtain ⟨-, hbelow⟩ := shaped_iff.1 hn
  obtain ⟨hchildren, hlater⟩ := pairwise_start_from (d := d) [] n.childList rfl
    hbelow fun c hc => ih c hc (hbelow c hc)
  rw [spots_cons, List.map_cons]
  refine List.pairwise_cons.2 ⟨fun x hx => ?_, hchildren⟩
  obtain ⟨s, hs, rfl⟩ := List.mem_map.1 hx
  have hopening := length_opening_pos d n.props
  have hbehind := hlater s hs
  show 0 < start d s.position n
  omega

/-! ## Trees that differ at one position -/

/-- **The lines around the block** of the position are the same. -/
theorem front_back_congr (h : ChangedOnlyAt p n m) (ha : n.at? p = some a) (hb : m.at? p = some b)
    (d : Dialect) (level : Nat) :
    front d level p m = front d level p n ∧ back d level p m = back d level p n := by
  induction p generalizing n m level with
  | nil => exact ⟨rfl, rfl⟩
  | cons i p ih =>
    obtain ⟨u, hu, ha⟩ := exists_child_of_at? ha
    obtain ⟨v, hv, hb⟩ := exists_child_of_at? hb
    obtain ⟨hprops, htake, hdrop, hbelow⟩ := h.below hu hv
    obtain ⟨hfront, hback⟩ := ih hbelow ha hb (level + 1)
    rw [front, front, back, back, hprops, htake, hdrop, hu, hv]
    simp only [Option.map_some, Option.getD_some, hfront, hback, and_self]

/-! ## The layout -/

/-- **The layout of an exported tree.**

Every node has one block of lines, none of them empty.  It stands whole between the lines in front of it
and those behind; blocks start one behind the other in the order of the walk, the block of a child
within that of its parent, behind the first line and in front of the last one, and the block of the next
child at once behind it.  The same tree some levels further in has the same lines, each as much further
in, and is written so.  A tree that differs at one position has the same lines in front of the block
there, and behind it. -/
theorem fragment_layout (hn : n.Shaped) (d : Dialect) (level : Nat) :
    n.spots.map (·.node) = n.nodes ∧
    (∀ p m, n.at? p = some m →
      fragment d (level + p.length) m ≠ [] ∧ (front d level p n).length = start d p n ∧
      fragment d level n
        = front d level p n ++ (fragment d (level + p.length) m ++ back d level p n)) ∧
    (n.spots.map fun s => start d s.position n).Pairwise (· < ·) ∧
    (∀ p m i c, n.at? p = some m → m.childList[i]? = some c →
      start d p n < start d (p ++ [i]) n ∧
      start d (p ++ [i]) n + (lines d c).length < start d p n + (lines d m).length ∧
      ∀ next, m.childList[i + 1]? = some next →
        start d (p ++ [i + 1]) n = start d (p ++ [i]) n + (lines d c).length) ∧
    (∀ k, fragment d (level + k) n = (fragment d level n).map (Line.deeper k) ∧ ∀ width,
      fragmentText d width (level + k) n = String.intercalate "\n"
        ((fragment d level n).map fun l => indentation width k ++ written d width l)) ∧
    ∀ m p a b, m.Shaped → ChangedOnlyAt p n m → n.at? p = some a → m.at? p = some b →
      fragment d level m
        = front d level p n ++ (fragment d (level + p.length) b ++ back d level p n) := by
  refine ⟨map_node_spots n, fun p m hm => ?_, pairwise_start d n hn, fun p m i c hm hc => ?_,
    fun k => ⟨fragment_add d level k n, fun width => ?_⟩, fun m p a b hm hchanged ha hb => ?_⟩
  · exact ⟨fragment_ne_nil d _ m, length_front d level p n, fragment_eq_front_back hn hm d level⟩
  · obtain ⟨hbehind, hwithin, hnext⟩ := start_child (shaped_of_at? hn hm) hc d
    rw [start_append hm]
    refine ⟨by omega, by omega, fun next hsome => ?_⟩
    rw [start_append hm, hnext next hsome, Nat.add_assoc]
  · rw [fragmentText_eq, fragment_add, List.map_map]
    exact congrArg _ (List.map_congr_left fun l _ => written_deeper d width k l)
  · obtain ⟨hfront, hback⟩ := front_back_congr hchanged ha hb d level
    rw [fragment_eq_front_back hm hb d level, hfront, hback]

/-- A box of an unrecognised type with two notes in it, in a card. -/
def gadgetPage : Node :=
  ⟨"page", .blank (some .card), some [
    ⟨"box", .unknown "Gadget" [], some [.make "a" (.blank (some .text)),
      .make "b" (.blank (some .divider))], {}⟩,
    .make "end" (.blank (some .rating))], {}⟩

/-- The page with another second note. -/
def gadgetDraft : Node :=
  ⟨"page", .blank (some .card), some [
    ⟨"box", .unknown "Gadget" [], some [.make "a" (.blank (some .text)),
      .make "c" (.blank (some .toggle))], {}⟩,
    .make "end" (.blank (some .rating))], {}⟩

/-- The drafts differ in the block of the note, which is a line of the one and four of the other. -/
theorem fragment_layout_gadgetPage :
    gadgetPage.Shaped ∧ gadgetDraft.Shaped ∧ ChangedOnlyAt [0, 1] gadgetPage gadgetDraft ∧
    gadgetPage.spots.map (fun s => start .react s.position gadgetPage) = [0, 1, 3, 4, 6] ∧
    fragment .react 0 gadgetDraft = front .react 0 [0, 1] gadgetPage
      ++ (fragment .react 2 (.make "c" (.blank (some .toggle)))
        ++ back .react 0 [0, 1] gadgetPage) := by
  have hpage : gadgetPage.Shaped := by decide +kernel
  have hdraft : gadgetDraft.Shaped := by decide +kernel
  have hchanged : ChangedOnlyAt [0, 1] gadgetPage gadgetDraft :=
    changedOnlyAt_changedAt (fun _ => .make "c" (.blank (some .toggle)))
      (show gadgetPage.at? [0, 1] = some (.make "b" (.blank (some .divider))) from rfl)
  obtain ⟨-, -, -, -, -, hsame⟩ := fragment_layout hpage .react 0
  exact ⟨hpage, hdraft, hchanged, by decide +kernel,
    hsame gadgetDraft [0, 1] _ _ hdraft hchanged rfl rfl⟩

end Export
end PageBuilder
