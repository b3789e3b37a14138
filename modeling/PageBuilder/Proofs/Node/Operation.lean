/-
  The edits of a tree, as data.

  Programs:       `Operation` — one of the four edits; `on?` — the edited tree.
  Specification:  `Makes` — what an edit makes of the node that it is for; `on?_cases` — an edit that
                  succeeds puts that in place of the first node of its id, or takes that node out of
                  the list of its parent.
  Crux:           `on?_plug_eq_some_iff` — at the place of the first node of its id an edit IS what it
                  makes of that node, so nobody has to look at the edit again.
-/
import PageBuilder.Proofs.Node.Place

namespace PageBuilder.Node

/-- **One of the four edits** of a tree. -/
inductive Operation where
  | insert (container : String) (new : Node)
  | setProps (id : String) (partials : Json.Fields)
  | setBehavior (id : String) (patch : Behavior.Patch)
  | delete (id : String)

namespace Operation

/-- **The edited tree**, if the edit succeeds. -/
def on? (tree : Node) : Operation → Option Node
  | .insert container new => tree.insertChild? container new
  | .setProps id partials => tree.updateProps? id partials
  | .setBehavior id patch => tree.updateBehavior? id patch
  | .delete id => tree.delete? id

/-- Id of the node that is addressed. -/
def target : Operation → String
  | .insert container _ => container
  | .setProps id _ => id
  | .setBehavior id _ => id
  | .delete id => id

variable {tree t n : Node} {o : Operation}

/-- **What an edit makes of the node** that it is for, where it applies to that node. -/
inductive Makes (tree n : Node) : Operation → Node → Prop
  | insert (container : String) (new : Node) (holds : n.isContainer = true)
      (fresh : ∀ id ∈ new.ids, id ∉ tree.ids) :
      Makes tree n (.insert container new) { n with children := some (n.childList ++ [new]) }
  | setProps (id : String) (partials : Json.Fields) (props : Props)
      (merged : n.props.merged? partials = .ok props) (differs : props.same n.props = false) :
      Makes tree n (.setProps id partials) { n with props := props }
  | setBehavior (id : String) (patch : Behavior.Patch)
      (differs : (patch.apply n.behavior).same n.behavior = false) :
      Makes tree n (.setBehavior id patch) { n with behavior := patch.apply n.behavior }

/-- **At the place of the first node of its id**, an edit is what it makes of that node. -/
theorem on?_plug_eq_some_iff (ho : ∀ id, o ≠ .delete id) {p : Place} (hn : n.id = o.target)
    (hbefore : o.target ∉ p.idsBefore) :
    o.on? (p.plug n) = some t ↔ ∃ m, o.Makes (p.plug n) n m ∧ p.plug m = t := by
  -- the edits share the way to the node, and differ in what they do there
  have hedit : ∀ f : Node → Option Node, (editAt o.target f (p.plug n)).toOption = some t ↔
      ∃ m, f n = some m ∧ p.plug m = t := by
    intro f
    rw [toOption_editAt fun f => editAt_plug hn p hbefore]
    exact Option.map_eq_some_iff
  cases o with
  | insert container new =>
    -- an insertion asks of the whole tree that the new ids be free
    have happly : on? (p.plug n) (.insert container new) = some t ↔
        duplicateId? (p.plug n) new = none ∧ ∃ m, appendChild? new n = some m ∧ p.plug m = t := by
      rw [← hedit, on?, insertChild?]
      cases duplicateId? (p.plug n) new <;> simp [target]
    rw [happly, duplicateId?_eq_none_iff]
    constructor
    · rintro ⟨hfresh, m, hm, rfl⟩
      obtain ⟨hcontainer, rfl⟩ := appendChild?_eq_some_iff.1 hm
      exact ⟨_, .insert container new hcontainer hfresh, rfl⟩
    · rintro ⟨m, hmakes, rfl⟩
      cases hmakes with
      | insert _ _ holds fresh =>
        exact ⟨fresh, _, appendChild?_eq_some_iff.2 ⟨holds, rfl⟩, rfl⟩
  | setProps id partials =>
    refine (hedit (mergeProps? partials)).trans ?_
    constructor
    · rintro ⟨m, hm, rfl⟩
      obtain ⟨props, hmerged, hdiffers, rfl⟩ := mergeProps?_eq_some_iff.1 hm
      exact ⟨_, .setProps id partials props hmerged hdiffers, rfl⟩
    · rintro ⟨m, hmakes, rfl⟩
      cases hmakes with
      | setProps _ _ props merged differs =>
        exact ⟨_, mergeProps?_eq_some_iff.2 ⟨props, merged, differs, rfl⟩, rfl⟩
  | setBehavior id patch =>
    refine (hedit (patchBehavior? patch)).trans ?_
    constructor
    · rintro ⟨m, hm, rfl⟩
      obtain ⟨hdiffers, rfl⟩ := patchBehavior?_eq_some_iff.1 hm
      exact ⟨_, .setBehavior id patch hdiffers, rfl⟩
    · rintro ⟨m, hmakes, rfl⟩
      cases hmakes with
      | setBehavior _ _ differs => exact ⟨_, patchBehavior?_eq_some_iff.2 ⟨differs, rfl⟩, rfl⟩
  | delete id => exact absurd rfl (ho id)

/-- Without a node of its id an edit fails. -/
theorem on?_of_absent (ho : ∀ id, o ≠ .delete id) (h : ∀ f, editAt o.target f tree = .absent) :
    o.on? tree = none := by
  have hnone : ∀ f : Node → Option Node, (editAt o.target f tree).toOption = none := by
    intro f
    rw [h]
    rfl
  cases o with
  | insert container new =>
    rw [on?, insertChild?]
    -- taken ids are reported before the container is looked for
    split
    · rfl
    · exact hnone _
  | setProps id partials => exact hnone _
  | setBehavior id patch => exact hnone _
  | delete id => exact absurd rfl (ho id)

/-- **What an edit that succeeds has done**: it has put what it makes of the first node of its id in
the place of that node, or it has taken that node out. -/
theorem on?_cases (h : o.on? tree = some t) :
    (∃ (p : Place) (n m : Node), tree = p.plug n ∧ n.id = o.target ∧ o.target ∉ p.idsBefore ∧
      o.Makes tree n m ∧ t = p.plug m) ∨
    ∃ (id : String) (l : Level) (p : Place) (n : Node), o = .delete id ∧
      tree.isProtected id = false ∧ tree = Place.fill l p [n] ∧ n.id = id ∧
      id ∉ Place.idsBefore (l :: p) ∧ t = Place.fill l p [] := by
  -- a deletion goes to the list that the node is in, any other edit to the node itself
  by_cases ho : ∃ id, o = .delete id
  · obtain ⟨id, rfl⟩ := ho
    have hdelete : tree.delete? id = some t := h
    cases hprotected : tree.isProtected id with
    | true => simp [delete?, hprotected] at hdelete
    | false =>
      rcases delete?_cases hprotected with ⟨-, hnone⟩ | ⟨l, p, n, htree, hn, hbefore, -, hdone⟩
      · simp [hnone] at hdelete
      · rw [hdone] at hdelete
        exact Or.inr ⟨id, l, p, n, rfl, hprotected, htree, hn, hbefore,
          (Option.some.inj hdelete).symm⟩
  · rw [not_exists] at ho
    rcases editAt_cases o.target tree with ⟨-, habsent⟩ | ⟨p, n, rfl, hn, hbefore, -, -⟩
    · simp [on?_of_absent ho habsent] at h
    · obtain ⟨m, hmakes, rfl⟩ := (on?_plug_eq_some_iff ho hn hbefore).1 h
      exact Or.inl ⟨p, n, m, rfl, hn, hbefore, hmakes, rfl⟩

end Operation
end PageBuilder.Node
