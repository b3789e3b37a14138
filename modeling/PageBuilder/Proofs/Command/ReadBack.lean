/-
  What a command writes, and whether the next command can read it.

  Programs:       `edit?` — the node that a command selects and the edit that it makes;
                  `Session.opened` — a session over a page, with a node selected.
  Specification:  `readBack_of_run` — a command that came to its end and edits the page leaves the
                  tree of its session, and an interaction leaves its variables in their order, except
                  that what nests deeper than the reader allows is written and cannot be read.
  Crux:           what is in the files was read, what an edit brings is legible, and edits and
                  interactions keep to what is legible; so the limit of the reader is all that can come
                  between a command and the next one.
-/
import PageBuilder.Proofs.Command.Program
import PageBuilder.Proofs.Intent.Legible
import PageBuilder.Proofs.Session.Broadcast

namespace PageBuilder

/-! ## Edits -/

namespace Session

variable {s : Session} {e : Edit}

/-- What comes with an edit is legible. -/
def Edit.Legible : Edit → Prop
  | .apply i => i.Legible
  | _ => True

/-- A legible edit stands for a legible intent. -/
theorem legible_of_intent {i : Intent} (he : e.Legible) (h : s.intent e = .ok i) : i.Legible := by
  rcases intent_cases h with rfl | ⟨-, rfl⟩ | ⟨k, id, -, rfl⟩ | ⟨t, id, -, rfl⟩
  · exact he
  · exact ⟨trivial, trivial, rfl⟩
  · exact ⟨trivial, trivial, rfl⟩
  · exact ⟨trivial, trivial, rfl⟩

/-- **An edit that was done** left the tree of the session legible. -/
theorem legible_of_edit {supply : Node.Supply} {a : Applied} (hs : s.tree.Legible)
    (htemplates : ∀ t ∈ s.templates.templates, t.schema.Legible) (he : e.Legible)
    (h : s.edit supply e = .ok a) : a.tree.Legible := by
  obtain ⟨i, hi, happly⟩ := edit_eq_ok_iff.1 h
  exact Intent.legible_apply hs htemplates (legible_of_intent he hi) happly

/-- **A session over a page**, with the root selected or another node. -/
def opened (page : Node) (selected : Option String) : Session :=
  selected.elim (start page Builtin.registry) (start page Builtin.registry).select

/-- A session over a page has that page, whatever is selected. -/
theorem opened_eq (page : Node) (selected : Option String) :
    ∃ id, opened page selected = ⟨page, id, .design, Builtin.registry⟩ := by
  cases selected with
  | none => exact ⟨page.id, rfl⟩
  | some id =>
    show ∃ i, (start page Builtin.registry).select id = _
    unfold select
    split
    · exact ⟨id, rfl⟩
    · exact ⟨page.id, rfl⟩

end Session

/-- A value from the command line is legible. -/
theorem Json.legible_ofArgument (s : String) : (ofArgument s).Legible := by
  unfold ofArgument
  cases h : ofText? s with
  | none => exact legible_string s
  | some v => exact legible_of_ofText? h

namespace Command

open Program

/-- **The edit that a command makes**, and the node that it selects before. -/
def edit? : Command → Option (Option String × Session.Edit)
  | .add what parent true => some (parent, .template what)
  | .add what parent false => (Choice.ofName? what).map fun k => (parent, .add (some k))
  | .set id key value => some (none, .apply (.setProps id [(key, .ofArgument value)]))
  | .delete id => some (some id, .deleteSelected)
  | _ => none

/-- What comes with a command is legible: it is text that was read, or a new component. -/
theorem legible_of_edit? {k : Command} {selected : Option String} {e : Session.Edit}
    (h : k.edit? = some (selected, e)) : e.Legible := by
  cases k with
  | add what parent ofTemplate =>
    -- a template is named, and the kind of a component is read
    cases ofTemplate with
    | true =>
      obtain ⟨-, rfl⟩ := Prod.mk.inj (Option.some.inj h)
      trivial
    | false =>
      obtain ⟨kind, -, h⟩ := Option.map_eq_some_iff.1 h
      obtain ⟨-, rfl⟩ := Prod.mk.inj h
      trivial
  | set id key value =>
    obtain ⟨-, rfl⟩ := Prod.mk.inj (Option.some.inj h)
    have hvalue := Json.legible_ofArgument value
    refine ⟨?_, List.forall_mem_singleton.2 hvalue.tidy, rfl⟩
    exact Json.holdProper_iff.2 (List.forall_mem_singleton.2 hvalue.isProper)
  | delete id =>
    obtain ⟨-, rfl⟩ := Prod.mk.inj (Option.some.inj h)
    trivial
  | init | templates | emit | preview | fire | projects | generate => cases h

/-! ## Commands that edit the page -/

variable {c : Config} {h h' : Host}

/-- A session opens over the page in the file. -/
theorem page_of_openSession {s : Session} (hrun : run h (openSession c) = (.ok s, h')) :
    ∃ page, run h (loadPage c.storage.page) = (.ok page, h) ∧ s = .start page Builtin.registry ∧
      h = h' := by
  obtain ⟨page, mid, hload, hrun⟩ := exists_of_run_bind hrun
  obtain ⟨rfl, rfl⟩ := eq_of_run_pure hrun
  obtain ⟨rfl, -⟩ := legible_of_loadPage hload
  exact ⟨page, hload, rfl, rfl⟩

/-- Selecting changes no file. -/
theorem eq_of_selecting {s s' : Session} {selected : Option String}
    (hrun : run h (selecting s selected) = (.ok s', h')) : selected.elim s s.select = s' ∧ h = h' := by
  cases selected with
  | none => exact eq_of_run_pure hrun
  | some id =>
    rw [selecting] at hrun
    split at hrun
    · exact eq_of_run_pure hrun
    · exact absurd hrun not_run_failed

/-- **A command edited the page**: it read it, made an edit, and wrote the tree. -/
structure Edited (c : Config) (selected : Option String) (e : Session.Edit) (h h' : Host)
    (page : Node) (supply : Node.Supply) (a : Applied) : Prop where
  loaded : run h (loadPage c.storage.page) = (.ok page, h)
  edit : (Session.opened page selected).edit supply e = .ok a
  written : h'.directory.read c.storage.page = .ok a.tree.pretty

/-- A session that is open, with a node selected, and what is done with it. -/
theorem opened_of_run {α : Type} {selected : Option String} {f : Session → Program α} {b : α}
    (hrun : run h (openSession c >>= fun s => selecting s selected >>= f) = (.ok b, h')) :
    ∃ page, run h (loadPage c.storage.page) = (.ok page, h) ∧
      run h (f (.opened page selected)) = (.ok b, h') := by
  obtain ⟨s, mid, hopen, hrun⟩ := exists_of_run_bind hrun
  obtain ⟨page, hload, rfl, rfl⟩ := page_of_openSession hopen
  obtain ⟨s, mid, hselect, hrun⟩ := exists_of_run_bind hrun
  obtain ⟨rfl, rfl⟩ := eq_of_selecting hselect
  exact ⟨page, hload, hrun⟩

/-- A change reads the page, edits it, and writes the tree. -/
theorem edited_of_change {selected : Option String} {e : Session.Edit} {page : Node}
    (hload : run h (loadPage c.storage.page) = (.ok page, h))
    (hrun : run h (change c (.opened page selected) e) = (.ok (), h')) :
    ∃ supply a, Edited c selected e h h' page supply a := by
  obtain ⟨a, mid, hedited, hrun⟩ := exists_of_run_bind hrun
  obtain ⟨hedit, rfl⟩ := eq_of_run_accept hedited
  exact ⟨[], a, hload, hedit, read_of_writeText hrun⟩

/-- **So does an addition**, of a component or of a template. -/
theorem edited_of_addition {what : String} {parent : Option String} {ofTemplate : Bool}
    {selected : Option String} {e : Session.Edit}
    (he : (Command.add what parent ofTemplate).edit? = some (selected, e))
    (hrun : run h (addition c what parent ofTemplate) = (.ok (), h')) :
    ∃ page supply a, Edited c selected e h h' page supply a := by
  obtain ⟨page, hload, hrun⟩ := opened_of_run hrun
  obtain ⟨e', mid, haddition, hrun⟩ := exists_of_run_bind hrun
  obtain ⟨hselected, rfl, rfl⟩ : selected = parent ∧ e = e' ∧ h = mid := by
    unfold additionOf at haddition
    cases ofTemplate with
    | true =>
      obtain ⟨rfl, rfl⟩ := Prod.mk.inj (Option.some.inj he)
      obtain ⟨rfl, rfl⟩ := eq_of_run_pure haddition
      exact ⟨rfl, rfl, rfl⟩
    | false =>
      obtain ⟨kind, hkind, he⟩ := Option.map_eq_some_iff.1 he
      obtain ⟨rfl, rfl⟩ := Prod.mk.inj he
      obtain ⟨kind', mid, hrequired, haddition⟩ := exists_of_run_bind haddition
      obtain ⟨hkind', rfl⟩ := eq_of_run_require hrequired
      obtain rfl : kind = kind' := Option.some.inj (hkind.symm.trans hkind')
      obtain ⟨rfl, rfl⟩ := eq_of_run_pure haddition
      exact ⟨rfl, rfl, rfl⟩
  obtain ⟨supply, mid, -, hrun⟩ := exists_of_run_bind hrun
  obtain ⟨a, mid', hedited, hrun⟩ := exists_of_run_bind hrun
  obtain ⟨hedit, -⟩ := eq_of_run_accept hedited
  obtain ⟨u, saved, hsave, hrun⟩ := exists_of_run_bind hrun
  -- what comes after the page is written leaves the files as they are
  obtain ⟨u, kept, hkeep, hprint⟩ := exists_of_run_bind hrun
  have hfiles : h'.directory = saved.directory :=
    (directory_of_run_request rfl hprint).trans (directory_of_run_request rfl hkeep)
  have hwritten : h'.directory.read c.storage.page = .ok a.tree.pretty := by
    rw [hfiles]
    exact read_of_writeText hsave
  rw [hselected]
  exact ⟨page, supply, a, hload, hedit, hwritten⟩

/-- **A command that edits the page**, and came to its end. -/
theorem edited_of_run {k : Command} {selected : Option String} {e : Session.Edit}
    (he : k.edit? = some (selected, e)) (hrun : run h (k.program c) = (.ok (), h')) :
    ∃ page supply a, Edited c selected e h h' page supply a := by
  cases k with
  | add what parent ofTemplate => exact edited_of_addition he hrun
  | set id key value =>
    obtain ⟨rfl, rfl⟩ := Prod.mk.inj (Option.some.inj he)
    obtain ⟨s, mid, hopen, hrun⟩ := exists_of_run_bind hrun
    obtain ⟨page, hload, rfl, rfl⟩ := page_of_openSession hopen
    exact ⟨page, edited_of_change hload hrun⟩
  | delete id =>
    obtain ⟨rfl, rfl⟩ := Prod.mk.inj (Option.some.inj he)
    obtain ⟨page, hload, hrun⟩ := opened_of_run hrun
    exact ⟨page, edited_of_change hload hrun⟩
  | init | templates | emit | preview | fire | projects | generate => cases he

/-! ## Interactions -/

/-- An event from the command line brings a tidy value. -/
theorem isTidy_of_event {name : EventName} {value : Option String} {e : Event}
    (hrun : run h (event name value) = (.ok e, h')) : h = h' ∧ e.isTidy = true := by
  cases name with
  | change =>
    obtain ⟨v, mid, hrequired, hrun⟩ := exists_of_run_bind hrun
    obtain ⟨-, rfl⟩ := eq_of_run_require hrequired
    obtain ⟨rfl, hhost⟩ := eq_of_run_pure hrun
    exact ⟨hhost, (Json.legible_ofArgument v).tidy⟩
  | select | click | hover | blur =>
    obtain ⟨rfl, hhost⟩ := eq_of_run_pure hrun
    exact ⟨hhost, rfl⟩

/-- The answer of a host to the next request. -/
def answerOf (c : Config) (h : Host) (r : Request) : Option String :=
  (h.network h.sent (callOf c.network.client r)).map (·.body)

/-- **The variables after an interaction**, its request answered by a host. -/
def variablesAfter (c : Config) (h : Host) (page : Node) (id : String) (e : Event)
    (vs : Variables) : Variables :=
  let r := e.handle page .interactive id vs
  r.2.settled (answerOf c h) r.1

theorem isTidy_variablesAfter {page : Node} {e : Event} {vs : Variables} (hpage : page.Tidy)
    (he : e.isTidy = true) (hvs : (Json.object vs).isTidy = true) (id : String) :
    (Json.object (variablesAfter c h page id e vs)).isTidy = true :=
  EventOutcome.isTidy_settled _ _ (Event.isTidy_handle he hpage .interactive id hvs)

/-- What is told of an outcome is what is stored. -/
theorem settled_of_told {o : EventOutcome} {vs after : Variables}
    (hrun : run h (told c vs o) = (.ok after, h')) : o.settled (answerOf c h) vs = after := by
  have hprinted : ∀ {h : Host} {line : String} {vs : Variables},
      run h (print line >>= fun _ => pure vs) = (.ok after, h') → vs = after := by
    intro h line vs hrun
    obtain ⟨u, mid, -, hrun⟩ := exists_of_run_bind hrun
    exact (eq_of_run_pure hrun).1
  -- only a request that is pending asks the host
  cases o with
  | selected id | written name | ignored => exact hprinted hrun
  | action o =>
    cases o with
    | applied | notified message | inert => exact hprinted hrun
    | pending r =>
      obtain ⟨reply, mid, hasked, hrun⟩ := exists_of_run_bind hrun
      have hreply : h.network h.sent (callOf c.network.client r) = reply :=
        congrArg Prod.fst (eq_of_run_request hasked)
      show (r.resolve (answerOf c h r) vs).1 = after
      rw [answerOf, hreply]
      split at hrun
      · next ws hresolved =>
        rw [hresolved]
        exact hprinted hrun
      · next ws hresolved =>
        rw [hresolved]
        exact hprinted hrun

/-- **An interaction** that came to its end: it read the page and the variables, and wrote the
variables that are left. -/
theorem written_of_interaction {id : String} {name : EventName} {value : Option String}
    (hrun : run h (interaction c id name value) = (.ok (), h')) :
    ∃ page vs e, run h (loadPage c.storage.page) = (.ok page, h) ∧
      run h (loadState c.storage.state) = (.ok vs, h) ∧ run h (event name value) = (.ok e, h) ∧
      h'.directory.read c.storage.state = .ok (variablesAfter c h page id e vs).text := by
  obtain ⟨page, mid, hload, hrun⟩ := exists_of_run_bind hrun
  obtain ⟨rfl, -⟩ := legible_of_loadPage hload
  obtain ⟨vs, mid, hstate, hrun⟩ := exists_of_run_bind hrun
  obtain ⟨rfl, -⟩ := isTidy_of_loadState hstate
  dsimp only at hrun
  -- a user agent that is no header stops the program before the event
  split at hrun
  · obtain ⟨u, mid, hfailed, -⟩ := exists_of_run_bind hrun
    exact absurd hfailed not_run_failed
  · obtain ⟨e, mid, hevent, hrun⟩ := exists_of_run_bind hrun
    obtain ⟨rfl, -⟩ := isTidy_of_event hevent
    obtain ⟨after, mid, htold, hrun⟩ := exists_of_run_bind hrun
    obtain rfl : variablesAfter c h page id e vs = after := settled_of_told htold
    exact ⟨page, vs, e, hload, hstate, hevent, read_of_writeText hrun⟩

/-! ## What the next command reads -/

/-- **A command that came to its end.**  If it edits the page, it read a page and made its edit in a
session over it, and then the page that is read is the tree of the session.  If it is an interaction,
then the variables that are read are those that it left, in their order.  Numbers aside, this fails for
what nests deeper than the reader allows, and for nothing else: it was written, and does not parse. -/
theorem readBack_of_run {k : Command} (hrun : run h (k.program c) = (.ok (), h')) :
    (∀ selected e, k.edit? = some (selected, e) →
      ∃ page supply a, run h (loadPage c.storage.page) = (.ok page, h) ∧
        (Session.opened page selected).edit supply e = .ok a ∧
        ((∀ n ∈ a.tree.toJson.numbers, n.Survives) →
          run h' (loadPage c.storage.page)
            = (if a.tree.toJson.depth ≤ Json.maxDepth then .ok a.tree
                else .error (.malformed c.storage.page), h'))) ∧
    (∀ id name value, k = .fire id name value →
      ∃ page vs e, run h (loadPage c.storage.page) = (.ok page, h) ∧
        run h (loadState c.storage.state) = (.ok vs, h) ∧ run h (event name value) = (.ok e, h) ∧
        ((∀ n ∈ (Json.object (variablesAfter c h page id e vs)).numbers, n.Survives) →
          run h' (loadState c.storage.state)
            = (if (Json.object (variablesAfter c h page id e vs)).depth ≤ Json.maxDepth
                then .ok (variablesAfter c h page id e vs)
                else .error (.malformed c.storage.state), h'))) := by
  constructor
  · intro selected e he
    obtain ⟨page, supply, a, hedited⟩ := edited_of_run he hrun
    refine ⟨page, supply, a, hedited.loaded, hedited.edit, fun hn => ?_⟩
    obtain ⟨root, hopened⟩ := Session.opened_eq page selected
    -- the page was read from a text, and the templates are built in
    have htree : (Session.opened page selected).tree.Legible := by
      rw [hopened]
      exact (legible_of_loadPage hedited.loaded).2
    have htemplates : ∀ t ∈ (Session.opened page selected).templates.templates,
        t.schema.Legible := by
      rw [hopened]
      exact Builtin.legible_registry
    have hlegible : a.tree.Legible :=
      Session.legible_of_edit htree htemplates (legible_of_edit? he) hedited.edit
    exact run_loadPage_pretty hlegible hn hedited.written
  · rintro id name value rfl
    obtain ⟨page, vs, e, hload, hstate, hevent, hwritten⟩ := written_of_interaction hrun
    refine ⟨page, vs, e, hload, hstate, hevent, fun hn => ?_⟩
    have htidy := isTidy_variablesAfter (c := c) (h := h) (legible_of_loadPage hload).2.tidy
      (isTidy_of_event hevent).2 (isTidy_of_loadState hstate).2 id
    exact run_loadState_text htidy hn hwritten

/-! ## Values that nest -/

/-- **An array in an array**, so many times. -/
def nest : Nat → Json
  | 0 => .array []
  | k + 1 => .array [nest k]

theorem depth_nest : ∀ k : Nat, (nest k).depth = k + 1
  | 0 => rfl
  | k + 1 => by
    show max (nest k).depth 0 + 1 = _
    rw [depth_nest k, Nat.max_zero]

theorem faithful_nest : ∀ k : Nat, (nest k).Faithful
  | 0 => Json.faithful_array.2 fun _ hx => absurd hx List.not_mem_nil
  | k + 1 => Json.faithful_array.2 (List.forall_mem_singleton.2 (faithful_nest k))

theorem exists_nest_eq : ∀ k : Nat, ∃ xs, nest k = .array xs
  | 0 => ⟨[], rfl⟩
  | k + 1 => ⟨[nest k], rfl⟩

/-- What a value is spelled as reads as that value. -/
theorem ofArgument_nest {k : Nat} (hk : k < Json.maxDepth) :
    Json.ofArgument (nest k).compact = nest k := by
  have hread : Json.ofText? (nest k).compact
      = if (nest k).depth ≤ Json.maxDepth then some (nest k) else none :=
    Json.ofText?_write_eq Json.Style.blank_compact (faithful_nest k)
  rw [depth_nest, if_pos (Nat.succ_le_of_lt hk)] at hread
  rw [Json.ofArgument, hread]
  rfl

/-- Files in the current directory. -/
def desk : Config := { storage := { page := "page", state := "state" } }

/-- A host with a page in a file, and with no variables yet. -/
def fieldHost : Host where
  directory := ⟨[(["page"], Intent.boundField.pretty)], []⟩
  environment := []
  network := fun _ _ => none
  sent := 0
  suffix := fun n => toString n
  used := 0
  clock := 0
  printed := []

/-- A field with a note. -/
def noted (v : Json) : Node :=
  { Intent.boundField with
    props := .known .input { Settings.blank .input with others := [("note", v)] } }

theorem find?_boundField : Intent.boundField.find? "field" = some Intent.boundField := by
  decide +kernel

/-- The note is set, whatever array it is. -/
theorem edit_noted (supply : Node.Supply) (xs : List Json) :
    (Session.opened Intent.boundField none).edit supply
        (.apply (.setProps "field" [("note", .array xs)]))
      = .ok ⟨noted (.array xs), none, supply⟩ := by
  refine Session.edit_eq_ok_iff.2 ⟨_, rfl, ?_⟩
  show (Intent.setProps "field" [("note", .array xs)]).apply Builtin.registry supply
    Intent.boundField = _
  rw [Intent.apply, Intent.lookup_of_find? find?_boundField]
  rfl

/-- The page loads. -/
theorem run_loadPage_fieldHost :
    run fieldHost (loadPage "page") = (.ok Intent.boundField, fieldHost) := by
  have hlegible : Intent.boundField.Legible :=
    Node.legible_of_wireStable (by decide) (by decide)
  rw [run_loadPage_pretty hlegible (by decide) rfl]
  rfl

/-- A session opens over it. -/
theorem run_openSession_fieldHost :
    run fieldHost (openSession desk) = (.ok (.opened Intent.boundField none), fieldHost) := by
  have hload : run fieldHost (loadPage desk.storage.page) = (.ok Intent.boundField, fieldHost) :=
    run_loadPage_fieldHost
  rw [openSession, run_bind, hload]
  rfl

/-- A host on which a note was set. -/
def notedHost (k : Nat) : Host :=
  { fieldHost with directory := ⟨[(["page"], (noted (nest k)).pretty)], []⟩ }

/-- **Setting the note succeeds**, however deep it is within the limit. -/
theorem run_set_noted {k : Nat} (hk : k < Json.maxDepth) :
    run fieldHost ((Command.set "field" "note" (nest k).compact).program desk)
      = (.ok (), notedHost k) := by
  obtain ⟨xs, hxs⟩ := exists_nest_eq k
  rw [program, setProp, run_bind, run_openSession_fieldHost, ofArgument_nest hk]
  dsimp only
  rw [hxs, change, run_bind, edit_noted, ← hxs]
  rfl

theorem toJson_noted (v : Json) :
    (noted v).toJson = .object [("id", .string "field"), ("type", .string "Input"),
      ("props", .object [("note", v)]), ("bind", .string "name")] := by
  rfl

theorem depth_noted (v : Json) : (noted v).toJson.depth = v.depth + 2 := by
  rw [toJson_noted]
  show max 0 (max 0 (max (max v.depth 0 + 1) 0)) + 1 = _
  omega

theorem numbers_noted (v : Json) : (noted v).toJson.numbers = v.numbers := by
  rw [toJson_noted]
  show v.numbers ++ [] ++ [] = _
  rw [List.append_nil, List.append_nil]

/-- The field with the note is legible. -/
theorem legible_noted {k : Nat} (hk : k < Json.maxDepth) : (noted (nest k)).Legible := by
  obtain ⟨xs, hxs⟩ := exists_nest_eq k
  have hedit : Session.Edit.Legible (.apply (.setProps "field" [("note", nest k)])) := by
    rw [← ofArgument_nest hk]
    exact legible_of_edit? (k := .set "field" "note" (nest k).compact) rfl
  rw [hxs] at hedit ⊢
  exact Session.legible_of_edit (legible_of_loadPage run_loadPage_fieldHost).2
    Builtin.legible_registry hedit (edit_noted [] xs)

/-- **The page then loads only if the note is two levels less deep.** -/
theorem run_loadPage_noted {k : Nat} (hk : k < Json.maxDepth) :
    run (notedHost k) (loadPage "page")
      = (if k + 3 ≤ Json.maxDepth then .ok (noted (nest k)) else .error (.malformed "page"),
        notedHost k) := by
  have hnumbers : ∀ n ∈ (noted (nest k)).toJson.numbers, n.Survives := by
    rw [numbers_noted]
    exact (faithful_nest k).numbers
  rw [run_loadPage_pretty (legible_noted hk) hnumbers rfl, depth_noted, depth_nest]

/-- A host on which a field was filled. -/
def filledHost (k : Nat) : Host :=
  { fieldHost with
    directory := ⟨[(["page"], Intent.boundField.pretty),
      (["state"], Variables.text [("name", nest k)])], []⟩
    printed := ["wrote name"] }

/-- **Filling the field succeeds**, however deep the value is within the limit. -/
theorem run_fire_filled {k : Nat} (hk : k < Json.maxDepth) :
    run fieldHost ((Command.fire "field" .change (some (nest k).compact)).program desk)
      = (.ok (), filledHost k) := by
  have hload : run fieldHost (loadPage desk.storage.page) = (.ok Intent.boundField, fieldHost) :=
    run_loadPage_fieldHost
  -- the field is bound, so the change writes its variable
  have hhandle : (Event.change (nest k)).handle Intent.boundField .interactive "field" []
      = ([("name", nest k)], .written "name") := by
    unfold Event.handle
    rw [find?_boundField]
    rfl
  have hevent : run fieldHost (event .change (some (nest k).compact))
      = (.ok (.change (nest k)), fieldHost) := by
    show (Except.ok (Event.change (.ofArgument (nest k).compact)), fieldHost) = _
    rw [ofArgument_nest hk]
  have hstate : run fieldHost (loadState desk.storage.state) = (.ok [], fieldHost) := rfl
  have hheader : ¬ (!Call.isHeader desk.network.client.userAgent) = true := by decide +kernel
  rw [program, interaction, run_bind, hload]
  dsimp only
  rw [run_bind, hstate]
  dsimp only
  rw [if_neg hheader, run_bind, hevent]
  dsimp only
  rw [hhandle]
  rfl

/-- **The variables then load only if the value is one level less deep.** -/
theorem run_loadState_filled (k : Nat) :
    run (filledHost k) (loadState "state")
      = (if k + 2 ≤ Json.maxDepth then .ok [("name", nest k)] else .error (.malformed "state"),
        filledHost k) := by
  have hfaithful : (Json.object [("name", nest k)]).Faithful :=
    Json.faithful_object.2 ⟨List.nodup_singleton _, List.forall_mem_singleton.2 (faithful_nest k)⟩
  have hdepth : (Json.object [("name", nest k)]).depth = k + 2 := by
    show max (nest k).depth 0 + 1 = _
    rw [depth_nest, Nat.max_zero]
  rw [run_loadState_text hfaithful.tidy hfaithful.numbers rfl, hdepth]

/-- A note that nests as deep as a page allows is set, and read by the next command. -/
theorem readBack_noted :
    run fieldHost ((Command.set "field" "note" (nest 124).compact).program desk)
        = (.ok (), notedHost 124) ∧
      run (notedHost 124) (loadPage "page") = (.ok (noted (nest 124)), notedHost 124) := by
  have hrun := run_set_noted (k := 124) (by decide)
  refine ⟨hrun, ?_⟩
  obtain ⟨page, supply, a, hload, hedit, hread⟩ := (readBack_of_run hrun).1 none _ rfl
  obtain rfl : Intent.boundField = page :=
    Except.ok.inj (Prod.mk.inj (run_loadPage_fieldHost.symm.trans hload)).1
  obtain ⟨xs, hxs⟩ := exists_nest_eq 124
  rw [ofArgument_nest (by decide), hxs, edit_noted, ← hxs] at hedit
  obtain rfl := Except.ok.inj hedit
  rw [numbers_noted, depth_noted, depth_nest] at hread
  exact hread (faithful_nest 124).numbers

/-- **A level more** is set as well, and then the page cannot be read; and so it is with a variable. -/
theorem not_readBack_noted :
    run fieldHost (loadPage "page") = (.ok Intent.boundField, fieldHost) ∧
    run fieldHost (loadState "state") = (.ok [], fieldHost) ∧
    (∃ after, run fieldHost ((Command.set "field" "note" (nest 125).compact).program desk)
        = (.ok (), after) ∧
      run after (loadPage "page") = (.error (.malformed "page"), after)) ∧
    ∃ after, run fieldHost ((Command.fire "field" .change (some (nest 126).compact)).program desk)
        = (.ok (), after) ∧
      run after (loadState "state") = (.error (.malformed "state"), after) := by
  refine ⟨run_loadPage_fieldHost, rfl, ⟨_, run_set_noted (by decide), ?_⟩,
    ⟨_, run_fire_filled (by decide), ?_⟩⟩
  · exact run_loadPage_noted (by decide)
  · exact run_loadState_filled 126

end Command
end PageBuilder
