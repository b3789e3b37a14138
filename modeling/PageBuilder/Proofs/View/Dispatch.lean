/-
  Drawing and dispatch agree.

  A drawing says of every node which interactions are worth forwarding; the handler of interactions
  looks the node up by its id and decides for itself.

  Program:        `Interactions.forwards` — whether an interaction is worth forwarding.
  Specification:  `dispatch_agrees` — in a tree with distinct ids, a face forwards an interaction if and
                  only if its handling is not to ignore it; and what a change writes is what is pushed
                  into the node when the tree is drawn again.
  Crux:           `find?_of_mem` — with distinct ids the node that the handler finds is the one that was
                  drawn; after that both sides read the same behavior in the same mode.
-/
import PageBuilder.Interpreter.Basic
import PageBuilder.Proofs.View.Drawn

namespace PageBuilder

/-- In a tree with distinct ids, every node is found by its id. -/
theorem Node.find?_of_mem {tree n : Node} (h : tree.ids.Nodup) (hn : n ∈ tree.nodes) :
    tree.find? n.id = some n := by
  obtain ⟨m, hm⟩ : ∃ m, tree.find? n.id = some m := by
    refine Option.isSome_iff_exists.1 (contains_iff.2 ?_)
    exact List.mem_map_of_mem hn
  obtain ⟨hmem, hid⟩ := mem_of_find? hm
  rw [hm, List.inj_on_of_nodup_map h hmem hn hid]

/-- **Whether an interaction is worth forwarding**: selecting always is. -/
def Interactions.forwards (i : Interactions) : Event → Bool
  | .select => true
  | .fire .click => i.click
  | .fire .hover => i.hover
  | .fire .blur => i.blur
  | .change _ => i.valueChange

/-! ## One node -/

namespace Event

variable {tree n : Node} {id : String}

theorem handle_select (h : tree.find? id = some n) (mode : Mode) (vs : Variables) :
    select.handle tree mode id vs = (vs, .selected n.id) := by
  unfold handle
  rw [h]

/-- A page in use hands the event to the node. -/
theorem handle_interactive (h : tree.find? id = some n) (e : Event) (vs : Variables) :
    e.handle tree .interactive id vs = e.handleAt n vs := by
  unfold handle
  rw [h]
  cases e <;> rfl

/-- A page under design ignores all but selecting. -/
theorem handle_design (h : tree.find? id = some n) {e : Event} (he : e ≠ select) (vs : Variables) :
    e.handle tree .design id vs = (vs, .ignored) := by
  unfold handle
  rw [h]
  cases e with
  | select => exact absurd rfl he
  | fire slot => rfl
  | change value => rfl

/-- On a page in use, an interaction is ignored where the node has no action for it, or is not bound. -/
theorem handleAt_ne_ignored_iff (e : Event) (n : Node) (vs : Variables) :
    (e.handleAt n vs).2 ≠ .ignored ↔
      (Pass.interactions ⟨.interactive, vs, none⟩ n.behavior).forwards e = true := by
  cases e with
  | select => exact iff_of_true EventOutcome.noConfusion rfl
  | fire slot =>
    have hslot : (Pass.interactions ⟨.interactive, vs, none⟩ n.behavior).forwards (.fire slot)
        = (n.behavior.action slot).isSome := by
      cases slot <;> rfl
    rw [hslot, handleAt]
    cases n.behavior.action slot <;> simp
  | change value =>
    show _ ↔ n.behavior.bind.isSome = true
    rw [handleAt]
    cases n.behavior.bind <;> simp

end Event

/-- **An interaction is forwarded just where it is handled**, in either mode. -/
theorem Pass.forwards_iff (p : Pass) {tree n : Node} {id : String} (h : tree.find? id = some n)
    (e : Event) (vs : Variables) :
    (p.interactions n.behavior).forwards e = true ↔ (e.handle tree p.mode id vs).2 ≠ .ignored := by
  obtain ⟨mode, vars, selection⟩ := p
  cases mode with
  | interactive =>
    rw [Event.handle_interactive h, Event.handleAt_ne_ignored_iff]
    rfl
  | design =>
    -- under design selecting is all that is forwarded, and all that is handled
    by_cases he : e = .select
    · rw [he, Event.handle_select h]
      exact iff_of_true rfl EventOutcome.noConfusion
    · rw [Event.handle_design h he]
      refine iff_of_false ?_ (not_not_intro rfl)
      cases e with
      | select => exact absurd rfl he
      | fire slot => cases slot <;> exact Bool.false_ne_true
      | change value => exact Bool.false_ne_true

namespace View

/-- A face that is drawn is that of a node. -/
theorem exists_of_mem_drawn {p : Pass} {tree : Node} {f : Face} (h : f ∈ drawn (render? p tree)) :
    ∃ n ∈ tree.nodes, f = p.face n := by
  rw [drawn_render?_eq] at h
  obtain ⟨l, hl, rfl⟩ := List.mem_map.1 h
  refine ⟨l.node, ?_, rfl⟩
  rw [← Node.map_node_lineages]
  exact List.mem_map_of_mem (List.mem_filter.1 hl).1

/-- The interactions of a node of recognised kind. -/
theorem interactions_face (p : Pass) {n : Node} (h : (p.face n).props.kind? ≠ none) :
    (p.face n).interactions = p.interactions n.behavior := by
  obtain ⟨id, props, cs, b⟩ := n
  cases props with
  | unknown t fs => exact absurd rfl h
  | known k s => rfl

/-- **What is pushed into a node that is bound to a variable**, just after the variable was written. -/
theorem bound_face_put {vs : Variables} {selection : Option String} {n : Node} {k : Kind}
    {name : String} (hkind : n.kind? = some k) (hbind : n.behavior.bind = some name) (value : Json) :
    (Pass.face ⟨.interactive, Entries.put vs name value, selection⟩ n).bound
      = some (if k = .toggle ∨ k = .checkbox then .checked value.isTrue else .value value) := by
  have hget : Entries.get? (Entries.put vs name value) name = some value := by
    rw [Entries.get?_put, if_pos rfl]
  have hpictures := pictures_face (p := ⟨.interactive, Entries.put vs name value, selection⟩) rfl n
  rw [hpictures.bound k name hkind hbind, Variables.truthy, hget]
  rfl

/-- **Drawing and dispatch agree.**

In a tree with distinct ids, let a node of recognised kind be drawn, in either mode.  Its face forwards
a click, a hover, a blur or a change just when the handler, given the id of the node, does not ignore
it, whatever the variables hold by then and whatever the value of the change; and selecting always
selects the node.  If its face forwards changes, then after a change the node, if it is drawn again, has
the new value in it; a toggle and a check box have whether the value counts as true. -/
theorem dispatch_agrees (p : Pass) {tree : Node} (hids : tree.ids.Nodup) {f : Face}
    (hf : f ∈ drawn (render? p tree)) (hkind : f.props.kind? ≠ none) :
    (∀ e vs, f.interactions.forwards e = true ↔ (e.handle tree p.mode f.id vs).2 ≠ .ignored) ∧
    (∀ vs, Event.select.handle tree p.mode f.id vs = (vs, .selected f.id)) ∧
    ∀ value vs selection, f.interactions.valueChange = true →
      let after := ((Event.change value).handle tree p.mode f.id vs).1
      ∀ g ∈ drawn (render? ⟨p.mode, after, selection⟩ tree), g.id = f.id →
        g.bound = some (if f.props.kind? = some .toggle ∨ f.props.kind? = some .checkbox
          then .checked value.isTrue else .value value) := by
  obtain ⟨n, hn, rfl⟩ := exists_of_mem_drawn hf
  have hfind : tree.find? n.id = some n := Node.find?_of_mem hids hn
  have hinteractions := interactions_face p hkind
  rw [id_face, hinteractions]
  refine ⟨p.forwards_iff hfind, Event.handle_select hfind p.mode, ?_⟩
  intro value vs selection hchange after g hg hid
  -- the same node is drawn again
  obtain ⟨m, hm, rfl⟩ := exists_of_mem_drawn hg
  rw [id_face] at hid
  obtain rfl : m = n := List.inj_on_of_nodup_map hids hm hn hid
  obtain ⟨mode, vars, selected⟩ := p
  cases mode with
  | design => nomatch hchange
  | interactive =>
    obtain ⟨name, hbind⟩ := Option.isSome_iff_exists.1 hchange
    have hsame : (Pass.face ⟨.interactive, vars, selected⟩ m).props.kind? = m.kind? :=
      (pictures_face rfl m).kind
    rw [hsame] at hkind ⊢
    obtain ⟨k, hk⟩ := Option.ne_none_iff_exists'.1 hkind
    have hafter : after = Entries.put vs name value := by
      show ((Event.change value).handle tree .interactive m.id vs).1 = _
      rw [Event.handle_interactive hfind, Event.handleAt, hbind]
    rw [hafter, bound_face_put hk hbind, hk]
    simp only [Option.some.injEq]

/-- A switch that is bound to a variable and flips it on hover, and a field that shows while the
variable counts as true. -/
def switchPage : Node :=
  ⟨"root", .blank (some .container), some [
    ⟨"switch", .blank (some .toggle), none,
      { bind := some "dark", onHover := some (.toggle (some "dark")) }⟩,
    ⟨"name", .blank (some .input), none, { bind := some "name", visibleIf := some "dark" }⟩], {}⟩

/-- The switch forwards hovering and changes, and no click; switched on, and written to an empty text,
it is drawn as off.  The field is drawn with what was written to it. -/
theorem dispatch_agrees_switchPage :
    let p : Pass := ⟨.interactive, [("dark", .bool true)], none⟩
    let switch : Face := p.face ⟨"switch", .blank (some .toggle), none,
      { bind := some "dark", onHover := some (.toggle (some "dark")) }⟩
    let field : Face := p.face ⟨"name", .blank (some .input), none,
      { bind := some "name", visibleIf := some "dark" }⟩
    switchPage.ids.Nodup ∧
    (switch ∈ drawn (render? p switchPage) ∧ switch.props.kind? ≠ none ∧
      ((Event.fire .hover).handle switchPage .interactive "switch" []).2 ≠ .ignored ∧
      ¬ ((Event.fire .click).handle switchPage .interactive "switch" []).2 ≠ .ignored ∧
      switch.interactions.valueChange = true ∧
      ∀ g ∈ drawn (render? ⟨.interactive, [("dark", .string "")], none⟩ switchPage),
        g.id = "switch" → g.bound = some (.checked false)) ∧
    field ∈ drawn (render? p switchPage) ∧ field.props.kind? ≠ none ∧
      field.interactions.valueChange = true ∧
      ∀ g ∈ drawn (render? ⟨.interactive, [("dark", .bool true), ("name", .null)], none⟩ switchPage),
        g.id = "name" → g.bound = some (.value .null) := by
  intro p switch field
  have hids : switchPage.ids.Nodup := by decide +kernel
  have hswitch : switch ∈ drawn (render? p switchPage) := by decide +kernel
  have hfield : field ∈ drawn (render? p switchPage) := by decide +kernel
  have hswitchKind : switch.props.kind? ≠ none := by decide
  have hfieldKind : field.props.kind? ≠ none := by decide
  -- a change of a bound node writes its variable, of a switch too: flipping is what its hover does
  have hflipped : ((Event.change (.string "")).handle switchPage .interactive "switch"
      [("dark", .bool true)]).1 = [("dark", .string "")] := by
    decide +kernel
  have hwritten : ((Event.change .null).handle switchPage .interactive "name"
      [("dark", .bool true)]).1 = [("dark", .bool true), ("name", .null)] := by
    decide +kernel
  obtain ⟨hforwards, -, hloop⟩ := dispatch_agrees p hids hswitch hswitchKind
  refine ⟨hids, ⟨hswitch, hswitchKind, ?_, ?_, rfl, ?_⟩, hfield, hfieldKind, rfl, ?_⟩
  · exact (hforwards (.fire .hover) []).1 rfl
  · exact fun hclick => nomatch (hforwards (.fire .click) []).2 hclick
  · rw [← hflipped]
    exact hloop (.string "") [("dark", .bool true)] none rfl
  · rw [← hwritten]
    exact (dispatch_agrees p hids hfield hfieldKind).2.2 .null [("dark", .bool true)] none rfl

end View
end PageBuilder
