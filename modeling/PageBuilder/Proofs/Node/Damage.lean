/-
  Damage in a value stays local.

  The values of the props of a node, its animation and its actions may hold anything: what does not
  read is left out, and nothing else of the tree is touched.

  Programs:       `masked` — a value less what may be damaged; `valueAt?` — the value that the node at
                  a position is read from; `Agree` — what two nodes have in common of which the values
                  differ in damage only.
  Specification:  `agree_of_masked` — two values that differ in damage only both read or both do not,
                  and the trees that they read as agree at every position.
  Crux:           `exists_below` — one node at a time: its list of children is read from a list of
                  values that again differ in damage only.
-/
import PageBuilder.Proofs.Node.Position
import PageBuilder.Proofs.Node.RoundTrip
import PageBuilder.Proofs.Props.Recovery

namespace PageBuilder.Node

open Json (Fields)

/-! ## Damage -/

/-- The key of an action. -/
def slotKey : EventSlot → String
  | .click => "onClick"
  | .hover => "onHover"
  | .blur => "onBlur"

/-- The fields of a node that are dropped when they do not read. -/
def lenientKeys : List String := ["animation", "onClick", "onHover", "onBlur"]

/-- Props with every value blanked out; what is no object stays. -/
def maskedProps : Json → Json
  | .object ms => .object (ms.map fun e => (e.1, .null))
  | v => v

mutual
/-- **A value less what may be damaged**: in every node that is written as an object, the values of the
props, the animation and the actions are blanked out. -/
def masked : Json → Json
  | .object fs => .object (maskedFields fs)
  | v => v

def maskedFields : List (String × Json) → List (String × Json)
  | [] => []
  | (k, v) :: fs =>
    (k, if k = "children" then maskedChildren v else if k = "props" then maskedProps v
      else if lenientKeys.contains k then .null else v) :: maskedFields fs

def maskedChildren : Json → Json
  | .array xs => .array (maskedAll xs)
  | v => v

def maskedAll : List Json → List Json
  | [] => []
  | x :: xs => masked x :: maskedAll xs
end

/-! ## Positions -/

/-- The fields of the value that a node is read from. -/
def fieldsOf (v : Json) : Fields := (v.record? fieldNames).getD []

/-- The list of values that a list of children is read from. -/
def listOf? : Json → Option (List Json)
  | .array xs => some xs
  | _ => none

/-- The values that the children of a node are read from, if there is a list of them. -/
def childValues? (fs : Fields) : Option (List Json) := (Entries.get? fs "children").bind listOf?

/-- **The value of the node at a position.** -/
def valueAt? : List Nat → Json → Option Json
  | [], v => some v
  | i :: p, v => ((childValues? (fieldsOf v)).getD [])[i]?.bind (valueAt? p)

/-! ## Agreement -/

/-- **What two nodes have in common** of which the fields differ in damage only: all but their props,
animation and actions, and of those everything of which the values are the same. -/
structure Agree (fs gs : Fields) (m n : Node) : Prop where
  id : m.id = n.id
  typeName : m.props.typeName = n.props.typeName
  kind : m.kind? = n.kind?
  list : m.children.map List.length = n.children.map List.length
  tooltip : m.behavior.tooltip = n.behavior.tooltip
  bind : m.behavior.bind = n.behavior.bind
  visibleIf : m.behavior.visibleIf = n.behavior.visibleIf
  prop : ∀ x, Entries.only ((propsField? fs).getD []) x = Entries.only ((propsField? gs).getD []) x →
    Entries.get? m.props.toFields x = Entries.get? n.props.toFields x
  animation : Entries.get? fs "animation" = Entries.get? gs "animation" →
    m.behavior.animation = n.behavior.animation
  action : ∀ slot, Entries.get? fs (slotKey slot) = Entries.get? gs (slotKey slot) →
    m.behavior.action slot = n.behavior.action slot

/-! ## Masked values -/

theorem maskedAll_eq (xs : List Json) : maskedAll xs = xs.map masked := by
  induction xs with
  | nil => rfl
  | cons x xs ih => rw [maskedAll, ih, List.map_cons]

/-- What is found in masked fields. -/
theorem get?_maskedFields (fs : Fields) (k : String) :
    Entries.get? (maskedFields fs) k = (Entries.get? fs k).map fun v =>
      if k = "children" then maskedChildren v else if k = "props" then maskedProps v
        else if lenientKeys.contains k then .null else v := by
  induction fs with
  | nil => rfl
  | cons e r ih =>
    obtain ⟨x, v⟩ := e
    rw [maskedFields, Entries.get?, Entries.get?]
    split
    · next hx => rw [hx, Option.map_some]
    · exact ih

variable {fs gs : Fields}

/-- A field that may not be damaged is found as it was. -/
theorem get?_eq_of_masked (h : maskedFields fs = maskedFields gs) {k : String}
    (hk : k ≠ "children" ∧ k ≠ "props" ∧ lenientKeys.contains k = false) :
    Entries.get? fs k = Entries.get? gs k := by
  have hfound := congrArg (Entries.get? · k) h
  simp only [get?_maskedFields, if_neg hk.1, if_neg hk.2.1, hk.2.2] at hfound
  simpa using hfound

theorem maskedProps_eq_of_masked (h : maskedFields fs = maskedFields gs) :
    (Entries.get? fs "props").map maskedProps = (Entries.get? gs "props").map maskedProps := by
  have hfound := congrArg (Entries.get? · "props") h
  simpa [get?_maskedFields] using hfound

/-- What is masked alike has children that are masked alike. -/
theorem maskedChildren_eq_of_masked (h : maskedFields fs = maskedFields gs) :
    (Entries.get? fs "children").map maskedChildren
      = (Entries.get? gs "children").map maskedChildren := by
  have hfound := congrArg (Entries.get? · "children") h
  simpa [get?_maskedFields] using hfound

/-! ## What reads -/

/-- Props read or do not read, whatever their values are. -/
theorem isSome_propsField? (fs : Fields) : (propsField? fs).isSome
    = ((Entries.get? fs "props").map maskedProps).all fun v => v.fields?.isSome := by
  unfold propsField?
  cases Entries.get? fs "props" with
  | none => rfl
  | some v => cases v <;> rfl

theorem optionalString?_congr {k : String} (h : Entries.get? fs k = Entries.get? gs k) :
    Json.optionalString? fs k = Json.optionalString? gs k := by
  unfold Json.optionalString?
  rw [h]

/-- **The texts of behavior** are read from fields that may not be damaged. -/
theorem behavior?_of_masked (h : maskedFields fs = maskedFields gs) :
    (behavior? fs).map (fun b => (b.tooltip, b.bind, b.visibleIf))
      = (behavior? gs).map fun b => (b.tooltip, b.bind, b.visibleIf) := by
  have htext : ∀ k ∈ ["tooltip", "bind", "visibleIf"],
      Json.optionalString? fs k = Json.optionalString? gs k := by
    intro k hk
    refine optionalString?_congr (get?_eq_of_masked h ?_)
    revert k
    decide
  simp only [List.forall_mem_cons] at htext
  obtain ⟨htooltip, hbind, hvisible, -⟩ := htext
  -- only these three can fail; what is read leniently gives some behavior in any case
  unfold behavior? variableName?
  rw [htooltip, hbind, hvisible]
  cases Json.optionalString? gs "tooltip" <;> cases Json.optionalString? gs "bind" <;>
    cases Json.optionalString? gs "visibleIf" <;> rfl

/-- Masks do not cover the id and the type. -/
theorem requiredString?_of_masked (h : maskedFields fs = maskedFields gs) {k : String}
    (hk : k ≠ "children" ∧ k ≠ "props" ∧ lenientKeys.contains k = false) :
    Json.requiredString? fs k = Json.requiredString? gs k := by
  unfold Json.requiredString?
  rw [get?_eq_of_masked h hk]

/-- Whether a node comes together does not depend on what is masked. -/
theorem isSome_assemble?_of_masked (h : maskedFields fs = maskedFields gs)
    (cs ds : Option (List Node)) : (assemble? fs cs).isSome = (assemble? gs ds).isSome := by
  have hprops : (propsField? fs).isSome = (propsField? gs).isSome := by
    rw [isSome_propsField?, isSome_propsField?, maskedProps_eq_of_masked h]
  have hbehavior : (behavior? fs).isSome = (behavior? gs).isSome := by
    simpa using congrArg Option.isSome (behavior?_of_masked h)
  unfold assemble?
  rw [requiredString?_of_masked h (by decide), requiredString?_of_masked h (by decide)]
  simp only [Option.bind_eq_bind, Option.isSome_bind, Option.isSome_some, Option.any_true, hbehavior]
  cases hfs : propsField? fs <;> cases hgs : propsField? gs <;> simp_all

/-- An object is told apart from all other values, and those are not touched. -/
theorem exists_of_masked_object {w : Json} (h : masked w = masked (.object fs)) :
    ∃ gs, w = .object gs ∧ maskedFields gs = maskedFields fs := by
  cases w with
  | object gs => exact ⟨gs, rfl, Json.object.inj h⟩
  | null | bool _ | number _ | string _ | array _ => nomatch h

/-- A value that is no object is not masked. -/
theorem eq_of_masked {v w : Json} (h : masked w = masked v) (hv : ∀ fs, v ≠ .object fs) : w = v := by
  cases w with
  | object gs =>
    obtain ⟨fs, rfl, -⟩ := exists_of_masked_object h.symm
    exact absurd rfl (hv fs)
  | null | bool _ | number _ | string _ | array _ =>
    cases v with
    | object fs => exact absurd rfl (hv fs)
    | null | bool _ | number _ | string _ | array _ => exact h

/-- A list of children is told apart from all other values, and those are not touched. -/
theorem exists_of_maskedChildren_array {w : Json} {xs : List Json}
    (h : maskedChildren w = maskedChildren (.array xs)) :
    ∃ ys, w = .array ys ∧ maskedAll ys = maskedAll xs := by
  cases w with
  | array ys => exact ⟨ys, rfl, Json.array.inj h⟩
  | null | bool _ | number _ | string _ | object _ => nomatch h

/-- A value that is no array is not masked as a list of children. -/
theorem eq_of_maskedChildren {v w : Json} (h : maskedChildren w = maskedChildren v)
    (hv : ∀ xs, v ≠ .array xs) : w = v := by
  cases w with
  | array ys =>
    obtain ⟨xs, rfl, -⟩ := exists_of_maskedChildren_array h.symm
    exact absurd rfl (hv xs)
  | null | bool _ | number _ | string _ | object _ =>
    cases v with
    | array xs => exact absurd rfl (hv xs)
    | null | bool _ | number _ | string _ | object _ => exact h

-- by recursion on the first value; the shape of the second one follows from what is masked
mutual
/-- **What differs in damage only** reads or does not read. -/
theorem isSome_ofJson?_of_masked (v : Json) {w : Json} (h : masked w = masked v) :
    (ofJson? v).isSome = (ofJson? w).isSome := by
  cases v with
  | object fs =>
    obtain ⟨gs, rfl, hfields⟩ := exists_of_masked_object h
    -- an object fails for its children, or for what its own fields are
    have hchildren := isSome_childrenField?_of_masked fs gs hfields
    rw [ofJson?, ofJson?]
    split
    · next cs hcs =>
      rw [hcs] at hchildren
      obtain ⟨ds, hds⟩ := Option.isSome_iff_exists.1 hchildren.symm
      rw [hds]
      exact isSome_assemble?_of_masked hfields.symm cs ds
    · next hcs =>
      rw [hcs] at hchildren
      rw [Option.isNone_iff_eq_none.1 (Option.isSome_eq_false_iff.1 hchildren.symm)]
  | null | bool _ | number _ | string _ | array _ => rw [eq_of_masked h nofun]

/-- Whether the field of the children reads does not depend on what is masked. -/
theorem isSome_childrenField?_of_masked : ∀ fs gs : List (String × Json),
    maskedFields gs = maskedFields fs → (childrenField? fs).isSome = (childrenField? gs).isSome
  | [], [], _ => rfl
  | [], _ :: _, h => nomatch h
  | _ :: _, [], h => nomatch h
  | (k, v) :: fs, (l, w) :: gs, h => by
    obtain ⟨hentry, hfields⟩ := List.cons.inj h
    obtain ⟨rfl, hvalue⟩ := Prod.mk.inj hentry
    rw [childrenField?, childrenField?]
    split
    · next hk =>
      rw [if_pos hk, if_pos hk] at hvalue
      exact isSome_childrenOf?_of_masked v hvalue
    · exact isSome_childrenField?_of_masked fs gs hfields

theorem isSome_childrenOf?_of_masked (v : Json) {w : Json} (h : maskedChildren w = maskedChildren v) :
    (childrenOf? v).isSome = (childrenOf? w).isSome := by
  cases v with
  | array xs =>
    obtain ⟨ys, rfl, hall⟩ := exists_of_maskedChildren_array h
    rw [childrenOf?, childrenOf?, Option.isSome_map, Option.isSome_map]
    exact isSome_ofJsonAll?_of_masked xs ys hall
  | null | bool _ | number _ | string _ | object _ => rw [eq_of_maskedChildren h nofun]

theorem isSome_ofJsonAll?_of_masked : ∀ xs ys : List Json, maskedAll ys = maskedAll xs →
    (ofJsonAll? xs).isSome = (ofJsonAll? ys).isSome
  | [], [], _ => rfl
  | [], _ :: _, h => nomatch h
  | _ :: _, [], h => nomatch h
  | x :: xs, y :: ys, h => by
    obtain ⟨hx, hxs⟩ := List.cons.inj h
    have hhead := isSome_ofJson?_of_masked x hx
    have htail := isSome_ofJsonAll?_of_masked xs ys hxs
    rw [ofJsonAll?, ofJsonAll?]
    revert hhead htail
    cases ofJson? x <;> cases ofJson? y <;> cases ofJsonAll? xs <;> cases ofJsonAll? ys <;> simp
end

/-! ## One node -/

/-- A node is read from its fields, in whichever form it is written. -/
theorem ofJson?_eq (v : Json) :
    ofJson? v = (v.record? fieldNames).bind fun fs => (childrenField? fs).bind (assemble? fs) := by
  cases v with
  | object fs =>
    rw [ofJson?, Json.record?, Option.bind_some]
    cases childrenField? fs <;> rfl
  | array xs =>
    -- the children are the fourth value of an array
    have hat : childrenAt? 3 xs = childrenField? (fieldNames.zip xs) := by
      rcases xs with _ | ⟨a, _ | ⟨b, _ | ⟨c, _ | ⟨d, xs⟩⟩⟩⟩ <;> rfl
    rw [ofJson?, Json.record?, hat]
    split
    · rw [Option.bind_some]
      cases childrenField? (fieldNames.zip xs) <;> rfl
    · rfl
  | null | bool _ | number _ | string _ => rfl

/-- **What a node is put together of.** -/
theorem exists_of_ofJson? {v : Json} {n : Node} (h : ofJson? v = some n) :
    ∃ cs, childrenField? (fieldsOf v) = some cs ∧ assemble? (fieldsOf v) cs = some n := by
  rw [ofJson?_eq] at h
  obtain ⟨fs, hfs, h⟩ := Option.bind_eq_some_iff.1 h
  obtain ⟨cs, hcs, h⟩ := Option.bind_eq_some_iff.1 h
  unfold fieldsOf
  rw [hfs]
  exact ⟨cs, hcs, h⟩

/-- Values that are masked alike have fields that are, whichever form they are in. -/
theorem maskedFields_fieldsOf {v w : Json} (h : masked w = masked v) :
    maskedFields (fieldsOf w) = maskedFields (fieldsOf v) := by
  cases v with
  | object fs =>
    obtain ⟨gs, rfl, hfields⟩ := exists_of_masked_object h
    exact hfields
  | null | bool _ | number _ | string _ | array _ => rw [eq_of_masked h nofun]

/-! ## Children -/

/-- What is masked alike has as many children, each masked alike. -/
theorem map_masked_childValues? (h : maskedFields fs = maskedFields gs) :
    (childValues? fs).map (List.map masked) = (childValues? gs).map (List.map masked) := by
  have hlist : ∀ v, (listOf? v).map (List.map masked) = listOf? (maskedChildren v) := by
    intro v
    cases v with
    | array xs => exact congrArg some (maskedAll_eq xs).symm
    | null | bool _ | number _ | string _ | object _ => rfl
  have hchildren := maskedChildren_eq_of_masked h
  unfold childValues?
  simp only [Option.map_bind, Function.comp_def, hlist]
  simpa only [Option.bind_map, Function.comp_def] using congrArg (Option.bind · listOf?) hchildren

/-- The children are read from the list of values, one by one. -/
theorem map_ofJsonAll?_childValues? {cs : Option (List Node)} (h : childrenField? fs = some cs) :
    (childValues? fs).map ofJsonAll? = cs.map some := by
  rw [childrenField?_eq] at h
  unfold childValues?
  -- no field of children, and null for them, mean that there is no list
  split at h
  · next hnone =>
    rw [hnone, ← Option.some.inj h]
    rfl
  · next v hv =>
    rw [hv, Option.bind_some]
    cases v with
    | null =>
      rw [← Option.some.inj h]
      rfl
    | array xs =>
      obtain ⟨ns, hns, rfl⟩ := Option.map_eq_some_iff.1 h
      exact congrArg some hns
    | bool _ | number _ | string _ | object _ => exact absurd h.symm (Option.some_ne_none cs)

/-- A list of trees reads item by item. -/
theorem map_ofJson?_of_ofJsonAll? {xs : List Json} {ns : List Node} (h : ofJsonAll? xs = some ns) :
    xs.map ofJson? = ns.map some := by
  induction xs generalizing ns with
  | nil =>
    rw [← Option.some.inj h]
    rfl
  | cons x xs ih =>
    rw [ofJsonAll?] at h
    split at h
    · next m ms hm hms =>
      rw [← Option.some.inj h, List.map_cons, List.map_cons, hm, ih hms]
    · cases h

/-- As many children are read as there are values, each from its own. -/
theorem children_of_childrenField? {cs : Option (List Node)} (h : childrenField? fs = some cs) :
    cs.map List.length = (childValues? fs).map List.length ∧
      ∀ i : Nat, (cs.getD [])[i]? = ((childValues? fs).getD [])[i]?.bind ofJson? := by
  have hall := map_ofJsonAll?_childValues? h
  -- either side has a list just when the other has
  cases hvs : childValues? fs with
  | none =>
    rw [hvs] at hall
    rw [Option.map_eq_none_iff.1 hall.symm]
    exact ⟨rfl, fun i => rfl⟩
  | some xs =>
    rw [hvs] at hall
    obtain ⟨ns, rfl, hns⟩ := Option.map_eq_some_iff.1 hall.symm
    have heach := map_ofJson?_of_ofJsonAll? hns.symm
    constructor
    · simpa using (congrArg List.length heach).symm
    · intro i
      show ns[i]? = xs[i]?.bind ofJson?
      have hi : xs[i]?.map ofJson? = ns[i]?.map some := by
        simpa using congrArg (fun l => l[i]?) heach
      cases hx : xs[i]? <;> cases hy : ns[i]? <;> simp_all

/-- Whether a list of children is kept depends on the kind. -/
theorem fitChildren_eq (p : Props) (cs : Option (List Node)) :
    fitChildren p cs = match p.kind? with
      | some k => if k.isContainer then some (cs.getD []) else none
      | none => cs := by
  cases p <;> rfl

/-- How many children a node keeps depends on its kind and on their number. -/
theorem map_length_fitChildren {p q : Props} {cs ds : Option (List Node)} (hkind : p.kind? = q.kind?)
    (h : cs.map List.length = ds.map List.length) :
    (fitChildren p cs).map List.length = (fitChildren q ds).map List.length := by
  have hlist : (cs.getD []).length = (ds.getD []).length := by
    have hget := congrArg (Option.getD · (List.length (α := Node) [])) h
    rwa [Option.getD_map, Option.getD_map] at hget
  rw [fitChildren_eq, fitChildren_eq, hkind]
  split
  · split
    · exact congrArg some hlist
    · rfl
  · exact h

/-- **The children of a node**, each read from the value at its place, if they are kept. -/
theorem getElem?_childList {v : Json} {n : Node} (h : ofJson? v = some n) (i : Nat) :
    n.childList[i]? = if n.kind?.all Kind.isContainer then
      ((childValues? (fieldsOf v)).getD [])[i]?.bind ofJson? else none := by
  obtain ⟨cs, hcs, h⟩ := exists_of_ofJson? h
  obtain ⟨id, t, m, b, -, -, -, -, rfl⟩ := assemble?_eq_some_iff.1 h
  rw [← (children_of_childrenField? hcs).2 i]
  unfold childList
  rw [fitChildren_eq]
  show _ = if (Props.recover t m).kind?.all Kind.isContainer then _ else _
  cases (Props.recover t m).kind? with
  | none => rfl
  | some k => cases hk : k.isContainer <;> simp [hk]

/-! ## Agreement of what is read -/

/-- The actions and the animation are read from their own fields. -/
theorem lenient_of_behavior? {b : Behavior} (h : behavior? fs = some b) :
    b.animation = lenient Choice.ofJson? fs "animation" ∧
      ∀ slot, b.action slot = lenient Action.ofJson? fs (slotKey slot) := by
  simp only [behavior?, Option.bind_eq_bind, Option.bind_eq_some_iff] at h
  obtain ⟨tooltip, -, bind, -, visibleIf, -, h⟩ := h
  rw [← Option.some.inj h]
  exact ⟨rfl, fun slot => by cases slot <;> rfl⟩

theorem lenient_congr {α : Type} (read : Json → Option α) {k : String}
    (h : Entries.get? fs k = Entries.get? gs k) : lenient read fs k = lenient read gs k := by
  unfold lenient
  rw [h]

/-- **Agreement of two nodes.** -/
theorem agree_of_ofJson? {v w : Json} {m n : Node} (h : masked v = masked w)
    (hm : ofJson? v = some m) (hn : ofJson? w = some n) : Agree (fieldsOf v) (fieldsOf w) m n := by
  replace h := maskedFields_fieldsOf h
  obtain ⟨cs, hcs, hm⟩ := exists_of_ofJson? hm
  obtain ⟨ds, hds, hn⟩ := exists_of_ofJson? hn
  obtain ⟨id, t, l, b, hid, ht, hl, hb, rfl⟩ := assemble?_eq_some_iff.1 hm
  obtain ⟨id', t', l', b', hid', ht', hl', hb', rfl⟩ := assemble?_eq_some_iff.1 hn
  obtain ⟨hanimation, haction⟩ := lenient_of_behavior? hb
  obtain ⟨hanimation', haction'⟩ := lenient_of_behavior? hb'
  have htexts := behavior?_of_masked h
  rw [hb, hb', Option.map_some, Option.map_some] at htexts
  obtain ⟨htooltip, hbind, hvisible⟩ : b.tooltip = b'.tooltip ∧ b.bind = b'.bind ∧
      b.visibleIf = b'.visibleIf := by simpa using htexts
  -- what decides over acceptance is not masked, so both sides read it alike
  obtain rfl : id = id' := by
    rw [requiredString?_of_masked h (by decide), hid'] at hid
    exact (Option.some.inj hid).symm
  obtain rfl : t = t' := by
    rw [requiredString?_of_masked h (by decide), ht'] at ht
    exact (Option.some.inj ht).symm
  have hkind : (Props.recover t l).kind? = (Props.recover t l').kind? := by
    rw [Props.kind?_recover, Props.kind?_recover]
  -- the lists are as long as each other, whatever is in them
  have hlength : cs.map List.length = ds.map List.length := by
    have hvalues := congrArg (Option.map List.length) (map_masked_childValues? h)
    rw [(children_of_childrenField? hcs).1, (children_of_childrenField? hds).1]
    simpa [Option.map_map, Function.comp_def] using hvalues
  exact
    { id := rfl
      typeName := (Props.typeName_recover t l).trans (Props.typeName_recover t l').symm
      kind := hkind
      list := map_length_fitChildren hkind hlength
      tooltip := htooltip
      bind := hbind
      visibleIf := hvisible
      prop := fun x hx => by
        rw [hl, hl'] at hx
        exact Props.get?_recover_congr t hx
      animation := fun hfound => hanimation.trans ((lenient_congr _ hfound).trans hanimation'.symm)
      action := fun slot hfound =>
        (haction slot).trans ((lenient_congr _ hfound).trans (haction' slot).symm) }

/-- **Agreement at every position**, by induction on it. -/
theorem agree_at_of_masked {v w : Json} {m n : Node} (p : List Nat) (h : masked v = masked w)
    (hm : ofJson? v = some m) (hn : ofJson? w = some n) :
    (m.at? p).isSome = (n.at? p).isSome ∧ ∀ a b, m.at? p = some a → n.at? p = some b →
      ∃ x y, valueAt? p v = some x ∧ valueAt? p w = some y ∧
        Agree (fieldsOf x) (fieldsOf y) a b := by
  induction p generalizing v w m n with
  | nil =>
    refine ⟨rfl, fun a b ha hb => ⟨v, w, rfl, rfl, ?_⟩⟩
    rw [← Option.some.inj ha, ← Option.some.inj hb]
    exact agree_of_ofJson? h hm hn
  | cons i p ih =>
    have hvalue : ((childValues? (fieldsOf v)).getD [])[i]?.map masked
        = ((childValues? (fieldsOf w)).getD [])[i]?.map masked := by
      have hall := congrArg (Option.getD · (List.map masked []))
        (map_masked_childValues? (maskedFields_fieldsOf h))
      rw [Option.getD_map, Option.getD_map] at hall
      simpa using congrArg (·[i]?) hall
    -- the kinds are the same, so both nodes keep their lists or neither does
    rw [at?, at?, valueAt?, valueAt?, getElem?_childList hm, getElem?_childList hn,
      (agree_of_ofJson? h hm hn).kind]
    split
    · cases hx : ((childValues? (fieldsOf v)).getD [])[i]? with
      | none =>
        rw [hx] at hvalue
        rw [Option.map_eq_none_iff.1 hvalue.symm]
        exact ⟨rfl, by simp⟩
      | some x =>
        rw [hx] at hvalue
        obtain ⟨y, hy, hxy⟩ := Option.map_eq_some_iff.1 hvalue.symm
        rw [hy, Option.bind_some, Option.bind_some, Option.bind_some, Option.bind_some]
        have hsome := isSome_ofJson?_of_masked x hxy
        cases hc : ofJson? x with
        | none =>
          rw [hc] at hsome
          rw [Option.isNone_iff_eq_none.1 (Option.isSome_eq_false_iff.1 hsome.symm)]
          exact ⟨rfl, by simp⟩
        | some c =>
          rw [hc] at hsome
          obtain ⟨d, hd⟩ := Option.isSome_iff_exists.1 hsome.symm
          rw [hd]
          exact ih hxy.symm hc hd
    · exact ⟨rfl, by simp⟩

/-- **Damage stays local**: of two values that differ in the values of props, animations and actions
only, both read or neither does; the trees that they read as have nodes at the same positions, and two
nodes at one position agree on all that is not damaged. -/
theorem agree_of_masked {v w : Json} (h : masked v = masked w) :
    (ofJson? v).isSome = (ofJson? w).isSome ∧
      ∀ m n, ofJson? v = some m → ofJson? w = some n → ∀ p,
        (m.at? p).isSome = (n.at? p).isSome ∧ ∀ a b, m.at? p = some a → n.at? p = some b →
          ∃ x y, valueAt? p v = some x ∧ valueAt? p w = some y ∧
            Agree (fieldsOf x) (fieldsOf y) a b :=
  ⟨isSome_ofJson?_of_masked v h.symm, fun _ _ hm hn p => agree_at_of_masked p h hm hn⟩

/-- A page over a button, of which a variant and an action may be damaged. -/
def buttonPage (variant action : Json) : Json :=
  .object [("id", .string "page"), ("type", .string "Container"),
    ("children", .array [
      .object [("id", .string "go"), ("type", .string "Button"),
        ("props", .object [("label", .string "Go"), ("variant", variant)]),
        ("bind", .string "ready"),
        ("onHover", action),
        ("onClick", .object [("type", .string "toggle"), ("target", .string "ready")])]])]

def soundPage : Json := buttonPage (.string "danger") (.object [("type", .string "alert")])

def damagedPage : Json := buttonPage (.object []) (.number (.whole 7))

theorem agree_of_masked_damagedPage :
    masked soundPage = masked damagedPage ∧ ∃ m n, ofJson? soundPage = some m ∧
      ofJson? damagedPage = some n ∧ ∃ a b, m.at? [0] = some a ∧ n.at? [0] = some b ∧
        a.props ≠ b.props ∧ a.behavior.onHover ≠ b.behavior.onHover ∧
        Entries.get? a.props.toFields "label" = Entries.get? b.props.toFields "label" ∧
        a.behavior.onClick = b.behavior.onClick ∧ a.behavior.bind = b.behavior.bind := by
  have hmasked : masked soundPage = masked damagedPage := rfl
  obtain ⟨-, hread⟩ := agree_of_masked hmasked
  refine ⟨hmasked, _, _, rfl, rfl, _, _, rfl, rfl, by decide, by decide, ?_⟩
  obtain ⟨-, hpair⟩ := hread _ _ rfl rfl [0]
  obtain ⟨x, y, hx, hy, hagree⟩ := hpair _ _ rfl rfl
  cases hx
  cases hy
  exact ⟨hagree.prop "label" rfl, hagree.action .click rfl, hagree.bind⟩

end PageBuilder.Node
