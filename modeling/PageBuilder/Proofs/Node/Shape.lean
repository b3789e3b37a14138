/-
  The shape of a tree: which nodes have a list of children.

  A kind says whether its nodes have one.  The reader sees to that, whatever the value spells, and so
  does the making of a node; a node without a kind has a list or none, as it came.

  Programs:       `Shaped` — every node has a list just when its kind asks for one; `Built` — a tree
                  that was read, or was made and put together.
  Specification:  `shaped_of_built` — what is built is shaped.
  Crux:           `Reading.holds` — one induction along the reader, for any property that a node has
                  as soon as the nodes under it have it; a property of the values read from is handed
                  down on the way.
-/
import PageBuilder.Node.Wire
import PageBuilder.Proofs.Node.Place

namespace PageBuilder.Node

/-! ## One node -/

/-- **A node that is put together.** -/
theorem assemble?_eq_some_iff {fs : Json.Fields} {children : Option (List Node)} {n : Node} :
    assemble? fs children = some n ↔ ∃ id t m b, Json.requiredString? fs "id" = some id ∧
      Json.requiredString? fs "type" = some t ∧ propsField? fs = some m ∧ behavior? fs = some b ∧
      n = ⟨id, Props.recover t m, fitChildren (Props.recover t m) children, b⟩ := by
  simp only [assemble?, Option.bind_eq_bind, Option.bind_eq_some_iff, Option.some.injEq]
  constructor
  · rintro ⟨id, hid, t, ht, m, hm, b, hb, rfl⟩
    exact ⟨id, t, m, b, hid, ht, hm, hb, rfl⟩
  · rintro ⟨id, t, m, b, hid, ht, hm, hb, rfl⟩
    exact ⟨id, hid, t, ht, m, hm, b, hb, rfl⟩

/-! ## Induction along the reader -/

/-- **A property of what is read**: it is handed down from a value to its parts, and a node that is
read out of such parts over such nodes has it. -/
structure Reading (good : Json → Prop) (P : Node → Prop) : Prop where
  fields : ∀ {fs}, good (.object fs) → ∀ e ∈ fs, good e.2
  items : ∀ {xs}, good (.array xs) → ∀ x ∈ xs, good x
  node : ∀ {fs : Json.Fields} {children n}, (∀ e ∈ fs, good e.2) →
    (∀ c ∈ children.getD [], P c) → assemble? fs children = some n → P n

section Reading

variable {good : Json → Prop} {P : Node → Prop}

mutual
/-- **What is read has the property.** -/
theorem Reading.holds (r : Reading good P) (v : Json) {n : Node} (hv : good v)
    (h : ofJson? v = some n) : P n := by
  -- a node is read from an object, or from an array that holds the fields in order
  cases v with
  | object fs =>
    rw [ofJson?] at h
    split at h
    · next children hc => exact r.node (r.fields hv) (r.holds_field fs (r.fields hv) hc) h
    · nomatch h
  | array xs =>
    rw [ofJson?] at h
    split at h
    · split at h
      · next children hc =>
        refine r.node ?_ (r.holds_at 3 xs (r.items hv) hc) h
        intro e he
        exact r.items hv _ (List.of_mem_zip he).2
      · nomatch h
    · nomatch h
  | null | bool _ | number _ | string _ => nomatch h

theorem Reading.holds_field (r : Reading good P) : ∀ (fs : List (String × Json))
    {children : Option (List Node)}, (∀ e ∈ fs, good e.2) → childrenField? fs = some children →
    ∀ c ∈ children.getD [], P c
  | [], children, _, h => by
    rw [← Option.some.inj h]
    nofun
  | (k, v) :: fs, children, hfs, h => by
    obtain ⟨hv, hfs⟩ := List.forall_mem_cons.1 hfs
    rw [childrenField?] at h
    split at h
    · exact r.holds_children v hv h
    · exact r.holds_field fs hfs h

theorem Reading.holds_at (r : Reading good P) : ∀ (i : Nat) (xs : List Json)
    {children : Option (List Node)}, (∀ x ∈ xs, good x) → childrenAt? i xs = some children →
    ∀ c ∈ children.getD [], P c
  | _, [], children, _, h => by
    rw [childrenAt?] at h
    rw [← Option.some.inj h]
    nofun
  | 0, v :: _, children, hxs, h => by
    rw [childrenAt?] at h
    exact r.holds_children v (List.forall_mem_cons.1 hxs).1 h
  | i + 1, _ :: vs, children, hxs, h => by
    rw [childrenAt?] at h
    exact r.holds_at i vs (List.forall_mem_cons.1 hxs).2 h

theorem Reading.holds_children (r : Reading good P) (v : Json) {children : Option (List Node)}
    (hv : good v) (h : childrenOf? v = some children) : ∀ c ∈ children.getD [], P c := by
  cases v with
  | null =>
    rw [← Option.some.inj h]
    nofun
  | array xs =>
    obtain ⟨ns, hns, rfl⟩ := Option.map_eq_some_iff.1 h
    exact r.holds_all xs (r.items hv) hns
  | bool _ | number _ | string _ | object _ => nomatch h

theorem Reading.holds_all (r : Reading good P) : ∀ (xs : List Json) {ns : List Node},
    (∀ x ∈ xs, good x) → ofJsonAll? xs = some ns → ∀ c ∈ ns, P c
  | [], ns, _, h => by
    rw [← Option.some.inj h]
    nofun
  | x :: xs, ns, hxs, h => by
    obtain ⟨hx, hxs⟩ := List.forall_mem_cons.1 hxs
    rw [ofJsonAll?] at h
    split at h
    · next m ms hm hms =>
      rw [← Option.some.inj h, List.forall_mem_cons]
      exact ⟨r.holds x hx hm, r.holds_all xs hxs hms⟩
    · nomatch h
end

end Reading

/-! ## Children that fit -/

/-- A kind decides whether there is a list. -/
theorem isSome_fitChildren {p : Props} {cs : Option (List Node)} {k : Kind}
    (h : p.kind? = some k) : (fitChildren p cs).isSome = k.isContainer := by
  cases p with
  | unknown t fs => nomatch h
  | known l s =>
    obtain rfl : l = k := Option.some.inj h
    unfold fitChildren
    dsimp only
    cases l.isContainer <;> rfl

/-- Fitting adds no children. -/
theorem mem_fitChildren {p : Props} {cs : Option (List Node)} {c : Node}
    (h : c ∈ (fitChildren p cs).getD []) : c ∈ cs.getD [] := by
  cases p with
  | unknown t fs => exact h
  | known k s =>
    unfold fitChildren at h
    dsimp only at h
    split at h
    · exact h
    · nomatch h

/-! ## Shaped trees -/

/-- A node that fits its kind: containers and cards have a list of children, other kinds none. -/
def Shell.Fits (s : Shell) : Prop :=
  ∀ k, s.props.kind? = some k → (s.hasList = true ↔ k = .container ∨ k = .card)

instance (s : Shell) : Decidable s.Fits :=
  inferInstanceAs (Decidable (∀ k ∈ s.props.kind?, (s.hasList = true ↔ k = .container ∨ k = .card)))

/-- **A shaped tree**: every node of it fits its kind. -/
def Shaped (n : Node) : Prop := ∀ m ∈ n.nodes, m.shell.Fits

instance (n : Node) : Decidable n.Shaped :=
  inferInstanceAs (Decidable (∀ m ∈ n.nodes, m.shell.Fits))

theorem shaped_iff_shells {n : Node} : n.Shaped ↔ ∀ s ∈ n.shells, s.Fits := by
  unfold Shaped shells
  rw [List.forall_mem_map]

theorem shaped_iff {n : Node} : n.Shaped ↔ n.shell.Fits ∧ ∀ c ∈ n.childList, c.Shaped := by
  unfold Shaped
  rw [nodes_cons, List.forall_mem_cons, List.forall_mem_flatMap]

/-- A node that has a list just when its kind does fits its kind. -/
theorem Shell.fits_of_hasList {s : Shell}
    (h : ∀ k, s.props.kind? = some k → s.hasList = k.isContainer) : s.Fits := by
  intro k hk
  rw [h k hk]
  exact Kind.isContainer_iff

/-- A node of which nothing changes that its kind depends on. -/
theorem Shell.Fits.congr {s t : Shell} (h : s.Fits) (hkind : t.props.kind? = s.props.kind?)
    (hlist : t.hasList = s.hasList) : t.Fits := by
  intro k hk
  rw [hlist]
  exact h k (hkind.symm.trans hk)

/-- A node that fits a kind without children has none. -/
theorem childList_eq_nil {n : Node} {k : Kind} (h : n.shell.Fits) (hk : n.props.kind? = some k)
    (hcontainer : k.isContainer = false) : n.childList = [] := by
  have hlist : n.children.isSome ≠ true := by
    intro hlist
    rw [Kind.isContainer_iff.2 ((h k hk).1 hlist)] at hcontainer
    nomatch hcontainer
  rw [childList, Option.not_isSome_iff_eq_none.1 hlist]
  rfl

/-- The reader shapes what it reads. -/
theorem reading_shaped : Reading (fun _ => True) Shaped where
  fields _ _ _ := trivial
  items _ _ _ := trivial
  node {fs children n} _ hc h := by
    obtain ⟨id, t, m, b, -, -, -, -, rfl⟩ := assemble?_eq_some_iff.1 h
    rw [shaped_iff]
    refine ⟨Shell.fits_of_hasList fun k hk => isSome_fitChildren hk, ?_⟩
    intro c hmem
    exact hc c (mem_fitChildren hmem)

/-- A node that is made has a list just when its kind does. -/
theorem isSome_children_make (id : String) {p : Props} {k : Kind} (h : p.kind? = some k) :
    (make id p).children.isSome = k.isContainer := by
  have hcontainer : p.isContainer = k.isContainer := by
    unfold Props.isContainer
    rw [h]
  unfold make
  rw [hcontainer]
  cases k.isContainer <;> rfl

theorem shaped_make (id : String) (p : Props) : (make id p).Shaped := by
  rw [shaped_iff, childList_make]
  exact ⟨Shell.fits_of_hasList fun k hk => isSome_children_make id hk, nofun⟩

/-- A child is added only where there is a list. -/
theorem shaped_withChild {n c : Node} (hn : n.Shaped) (hc : c.Shaped) :
    (n.withChild c).Shaped := by
  obtain ⟨hshell, hbelow⟩ := shaped_iff.1 hn
  rw [shaped_iff]
  refine ⟨hshell.congr rfl (Option.isSome_map ..), fun d hd => ?_⟩
  unfold childList withChild at hd
  -- a node without a list does not take the child
  cases hcs : n.children with
  | none =>
    rw [hcs] at hd
    nomatch hd
  | some cs =>
    rw [hcs] at hd
    rcases List.mem_append.1 hd with hd | hd
    · refine hbelow d ?_
      unfold childList
      rw [hcs]
      exact hd
    · rw [List.mem_singleton.1 hd]
      exact hc

/-- **How a tree comes about**: it is read, or it is made, given children and given behavior. -/
inductive Built : Node → Prop
  | read {v : Json} {n : Node} (h : ofJson? v = some n) : Built n
  | made (id : String) (p : Props) : Built (make id p)
  | child {n c : Node} (hn : Built n) (hc : Built c) : Built (n.withChild c)
  | behaving {n : Node} (hn : Built n) (b : Behavior) : Built { n with behavior := b }

/-- **What is built is shaped.** -/
theorem shaped_of_built {n : Node} (h : Built n) : n.Shaped := by
  induction h with
  | read h => exact reading_shaped.holds _ trivial h
  | made id p => exact shaped_make id p
  | child hn hc ihn ihc => exact shaped_withChild ihn ihc
  | behaving hn b ih =>
    obtain ⟨hshell, hbelow⟩ := shaped_iff.1 ih
    exact shaped_iff.2 ⟨hshell.congr rfl rfl, hbelow⟩

end PageBuilder.Node
