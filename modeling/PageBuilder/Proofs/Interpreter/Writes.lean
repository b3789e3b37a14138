/-
  What a page in use writes to its variables.

  Program:        `Running.run`.
  Specification:  `Writes` — the ways in which a step writes, and what it writes; `LastWrite` — a write
                  that no later step of a run wrote over; `Waits` — a request that a step of a run
                  started and no later one resolved.
  Crux:           a request is kept with its target, so its answer is one more step that writes,
                  against the variables as they are then; nothing else about the order of requests
                  and answers matters.
-/
import Mathlib.Data.List.Induction
import PageBuilder.Interpreter.Run

namespace PageBuilder

/-! ## Actions -/

namespace Action

theorem present_eq_some_iff {s : Option String} {t : String} :
    present s = some t ↔ s = some t ∧ t ≠ "" := by
  unfold present
  rw [Option.filter_eq_some_iff, bne_iff_ne]

theorem present_some {s : String} (h : s ≠ "") : present (some s) = some s :=
  present_eq_some_iff.2 ⟨rfl, h⟩

theorem isBlankValue_eq_false_iff {v : Json} :
    isBlankValue v = false ↔ v ≠ .null ∧ v ≠ .string "" := by
  cases v <;> simp [isBlankValue]

/-- **An action with every required field**: empty texts count as missing, and so do `null` and the
empty text as a value to set. -/
inductive Valid : Action → ValidAction → Prop
  | toggle {target : String} (named : target ≠ "") : Valid (.toggle (some target)) (.toggle target)
  | set {target : String} {value : Json} (named : target ≠ "") (notNull : value ≠ .null)
      (notEmpty : value ≠ .string "") : Valid (.set (some target) (some value)) (.set target value)
  | alert {message : Option String} :
      Valid (.alert message) (.alert ((present message).getD defaultMessage))
  | apiRequest {url : String} {method : Option HttpMethod} {target : Option String}
      (named : url ≠ "") : Valid (.apiRequest (some url) method target)
        (.apiRequest url (method.getD .get) (present target))

/-- **An action that passes the check has every field that it needs.** -/
theorem valid_of_valid? {a : Action} {v : ValidAction} (h : a.valid? = some v) : Valid a v := by
  -- an alert needs nothing; the others need a name, a value or an address
  cases a with
  | toggle target =>
    obtain ⟨t, ht, rfl⟩ := Option.map_eq_some_iff.1 h
    obtain ⟨rfl, hne⟩ := present_eq_some_iff.1 ht
    exact .toggle hne
  | set target value =>
    simp only [valid?, Option.bind_eq_bind, Option.bind_eq_some_iff] at h
    obtain ⟨w, hw, t, ht, h⟩ := h
    obtain rfl := Option.some.inj h
    obtain ⟨rfl, hne⟩ := present_eq_some_iff.1 ht
    obtain ⟨rfl, hblank⟩ := Option.filter_eq_some_iff.1 hw
    obtain ⟨hnull, hempty⟩ := isBlankValue_eq_false_iff.1 (Bool.not_eq_true' _ ▸ hblank)
    exact .set hne hnull hempty
  | alert message =>
    obtain rfl := Option.some.inj h
    exact .alert
  | apiRequest url method target =>
    simp only [valid?, Option.bind_eq_bind, Option.bind_eq_some_iff] at h
    obtain ⟨u, hu, h⟩ := h
    obtain rfl := Option.some.inj h
    obtain ⟨rfl, hne⟩ := present_eq_some_iff.1 hu
    exact .apiRequest hne

theorem Valid.valid? {a : Action} {v : ValidAction} (h : Valid a v) : a.valid? = some v := by
  cases h with
  | toggle named =>
    rw [Action.valid?, present_some named]
    rfl
  | set named notNull notEmpty =>
    have hblank := isBlankValue_eq_false_iff.2 ⟨notNull, notEmpty⟩
    rw [Action.valid?, present_some named, Option.filter_some, hblank]
    rfl
  | alert => rfl
  | apiRequest named =>
    rw [Action.valid?, present_some named]
    rfl

end Action

/-! ## Steps -/

namespace Running

variable {s : Running} {st : Step} {name : String} {value : Json}

/-- The action that a step runs, if it does: one that is executed, or the one that a click, a hover
or a blur sets off at the first node of its id, on a page in use. -/
def Step.action? : Step → Option Action
  | .execute a => some a
  | .event tree .interactive id (.fire slot) =>
    (tree.find? id).bind fun n => n.behavior.action slot
  | _ => none

/-- The request that a step starts, if it does. -/
def Step.started? (st : Step) : Option Request :=
  match st.action? with
  | some (.apiRequest (some url) method target) =>
    if url = "" then none else some ⟨url, method.getD .get, Action.present target⟩
  | _ => none

/-- **What a step writes**: the variable and the value it stores there. -/
inductive Writes (s : Running) : Step → String → Json → Prop
  /-- A toggle flips what the variable counts as at that step. -/
  | toggle {st : Step} {target : String} (runs : st.action? = some (.toggle (some target)))
      (named : target ≠ "") : Writes s st target (.bool !(s.vars.truthy target))
  | set {st : Step} {target : String} {value : Json}
      (runs : st.action? = some (.set (some target) (some value))) (named : target ≠ "")
      (notNull : value ≠ .null) (notEmpty : value ≠ .string "") : Writes s st target value
  /-- A value goes to the variable that the node is bound to. -/
  | change {tree n : Node} {id name : String} {value : Json} (found : tree.find? id = some n)
      (bound : n.behavior.bind = some name) :
      Writes s (.event tree .interactive id (.change value)) name value
  /-- The body of an answer is kept as text, over several lines. -/
  | answer {n : Nat} {r : Request} {target body : String} {v : Json}
      (waits : s.request? n = some r) (aimed : r.target = some target) (named : target ≠ "")
      (read : Json.ofText? body = some v) :
      Writes s (.resolve n (some body)) target (.string v.pretty)
  /-- In place of a body that is not JSON a payload of two fields is kept, in the same way. -/
  | fallback {n : Nat} {r : Request} {target body : String}
      (waits : s.request? n = some r) (aimed : r.target = some target) (named : target ≠ "")
      (unread : Json.ofText? body = none) :
      Writes s (.resolve n (some body)) target
        (.string (Json.object [("status", .string "ok"), ("data", .string "Mock Data")]).pretty)

/-- A step that runs an action does what the action does. -/
theorem step_of_action {a : Action} (h : st.action? = some a) :
    s.step st = s.keep (a.execute s.vars).1 (a.execute s.vars).2 := by
  unfold Step.action? at h
  split at h
  · obtain rfl := Option.some.inj h
    rfl
  · next tree id slot =>
    obtain ⟨n, hn, ha⟩ := Option.bind_eq_some_iff.1 h
    simp only [step, Event.handle, hn, Event.handleAt, ha]
  · nomatch h

@[simp] theorem vars_keep (s : Running) (vs : Variables) (o : Outcome) : (s.keep vs o).vars = vs := by
  cases o <;> rfl

/-- A step writes what it is said to write. -/
theorem vars_step_of_writes (h : s.Writes st name value) :
    (s.step st).vars = Entries.put s.vars name value := by
  cases h with
  | toggle runs named =>
    have hvalid := (Action.Valid.toggle named).valid?
    rw [step_of_action runs, vars_keep, Action.execute, hvalid]
  | set runs named notNull notEmpty =>
    have hvalid := (Action.Valid.set named notNull notEmpty).valid?
    rw [step_of_action runs, vars_keep, Action.execute, hvalid]
  | change found bound => simp only [step, Event.handle, found, Event.handleAt, bound]
  | answer waits aimed named read =>
    simp only [step, waits, Request.resolve, aimed, Request.kept, read, Option.getD_some]
  | fallback waits aimed named unread =>
    simp only [step, waits, Request.resolve, aimed, Request.kept, unread, Option.getD_none,
      Request.fallback]

/-- A step writes one value to one variable, or nothing. -/
theorem Writes.unique {other : String} {w : Json} (h : s.Writes st name value)
    (k : s.Writes st other w) : other = name ∧ w = value := by
  cases h <;> cases k <;> simp_all [Step.action?]

/-- **Requests with a name to write to**, or none: the empty name is no name. -/
def Sound (s : Running) : Prop := ∀ n r, s.request? n = some r → r.target ≠ some ""

/-- An interaction that runs no action writes the variable that a node is bound to, or does nothing. -/
theorem step_event {tree : Node} {mode : Mode} {id : String} {e : Event}
    (haction : (Step.event tree mode id e).action? = none) :
    (∃ name value, s.Writes (.event tree mode id e) name value ∧
      s.step (.event tree mode id e) = { s with vars := Entries.put s.vars name value }) ∨
    s.step (.event tree mode id e) = s := by
  cases hfound : tree.find? id with
  | none => exact Or.inr (by simp only [step, Event.handle, hfound])
  | some n =>
    -- a page under design fires nothing
    cases mode with
    | design => exact Or.inr (by cases e <;> simp only [step, Event.handle, hfound])
    | interactive =>
      -- the action is excluded, so only a change of a bound value may write
      cases e with
      | select => exact Or.inr (by simp only [step, Event.handle, hfound])
      | fire slot =>
        have hnone : n.behavior.action slot = none := by simpa [Step.action?, hfound] using haction
        exact Or.inr (by simp only [step, Event.handle, hfound, Event.handleAt, hnone])
      | change value =>
        cases hbind : n.behavior.bind with
        | none => exact Or.inr (by simp only [step, Event.handle, hfound, Event.handleAt, hbind])
        | some name =>
          refine Or.inl ⟨name, value, .change hfound hbind, ?_⟩
          simp only [step, Event.handle, hfound, Event.handleAt, hbind]

/-- An answer is written if its request waits and has a target, and is dropped otherwise. -/
theorem writes_or_vars_resolve (hs : s.Sound) (n : Nat) (answer : Option String) :
    (∃ name value, s.Writes (.resolve n answer) name value) ∨
      (s.step (.resolve n answer)).vars = s.vars := by
  cases hwaits : s.request? n with
  | none => exact Or.inr (by simp only [step, hwaits])
  | some r =>
    cases answer with
    | none => exact Or.inr (by simp only [step, hwaits, Request.resolve])
    | some body =>
      cases haimed : r.target with
      | none => exact Or.inr (by simp only [step, hwaits, Request.resolve, haimed])
      | some target =>
        have hnamed : target ≠ "" := fun h => hs n r hwaits (haimed.trans (congrArg _ h))
        cases hread : Json.ofText? body with
        | none => exact Or.inl ⟨_, _, .fallback hwaits haimed hnamed hread⟩
        | some v => exact Or.inl ⟨_, _, .answer hwaits haimed hnamed hread⟩

/-- **A step that writes nothing** leaves the variables alone. -/
theorem writes_or_vars_step (hs : s.Sound) (st : Step) :
    (∃ name value, s.Writes st name value) ∨ (s.step st).vars = s.vars := by
  -- an action runs, or the step is an event without one, or an answer
  cases haction : st.action? with
  | some a =>
    rw [step_of_action haction, vars_keep, Action.execute]
    cases hvalid : a.valid? with
    | none => exact Or.inr rfl
    | some v =>
      cases Action.valid_of_valid? hvalid with
      | toggle named => exact Or.inl ⟨_, _, .toggle haction named⟩
      | set named notNull notEmpty => exact Or.inl ⟨_, _, .set haction named notNull notEmpty⟩
      | alert | apiRequest => exact Or.inr rfl
  | none =>
    cases st with
    | execute a => nomatch haction
    | event tree mode id e =>
      rcases step_event haction with ⟨name, value, hwrites, -⟩ | hidle
      · exact Or.inl ⟨name, value, hwrites⟩
      · exact Or.inr (congrArg vars hidle)
    | resolve n answer => exact writes_or_vars_resolve hs n answer

/-- A variable that a step does not write keeps its value. -/
theorem get?_step_of_not_writes (hs : s.Sound) (h : ∀ w, ¬ s.Writes st name w) :
    Entries.get? (s.step st).vars name = Entries.get? s.vars name := by
  rcases writes_or_vars_step hs st with ⟨x, v, hwrites⟩ | hidle
  · have hne : x ≠ name := by
      rintro rfl
      exact h v hwrites
    rw [vars_step_of_writes hwrites, Entries.get?_put, if_neg hne]
  · rw [hidle]

/-! ## Requests -/

/-- A step starts a request when it runs one with an address. -/
theorem started?_eq_some_iff {r : Request} :
    st.started? = some r ↔
      ∃ a, st.action? = some a ∧ a.Valid (.apiRequest r.url r.method r.target) := by
  constructor
  · intro h
    unfold Step.started? at h
    -- the action is a request, and has an address
    split at h
    · next url method target haction =>
      split at h
      · nomatch h
      · next hnamed =>
        obtain rfl := Option.some.inj h
        exact ⟨_, haction, .apiRequest hnamed⟩
    · nomatch h
  · obtain ⟨url, method, target⟩ := r
    rintro ⟨a, haction, hvalid⟩
    cases hvalid with
    | apiRequest named =>
      unfold Step.started?
      rw [haction]
      exact if_neg named

/-- A request that is gone already. -/
theorem requests_set_of_gone {n : Nat} (h : s.request? n = none) :
    s.requests.set n none = s.requests := by
  rcases Nat.lt_or_ge n s.requests.length with hn | hn
  · have hnone : s.requests[n] = none := by simpa [request?, hn] using h
    rw [← hnone, List.set_getElem_self]
  · exact List.set_eq_of_length_le hn

/-- **The requests after a step**: one more, or one answered, or the same. -/
theorem requests_step (s : Running) (st : Step) :
    (∃ r, st.started? = some r ∧ (s.step st).requests = s.requests ++ [some r]) ∨
    st.started? = none ∧
      ((∃ n answer, st = .resolve n answer ∧ (s.step st).requests = s.requests.set n none) ∨
        (∀ n answer, st ≠ .resolve n answer) ∧ (s.step st).requests = s.requests) := by
  cases haction : st.action? with
  | some a =>
    have hresolve : ∀ n answer, st ≠ .resolve n answer := by
      rintro n answer rfl
      nomatch haction
    rw [step_of_action haction, Action.execute]
    -- an action that starts no request is no valid request
    cases hstarted : st.started? with
    | some r =>
      obtain ⟨b, hb, hvalid⟩ := started?_eq_some_iff.1 hstarted
      obtain rfl := Option.some.inj (haction.symm.trans hb)
      rw [hvalid.valid?]
      exact Or.inl ⟨r, rfl, rfl⟩
    | none =>
      refine Or.inr ⟨rfl, Or.inr ⟨hresolve, ?_⟩⟩
      cases hvalid : a.valid? with
      | none => rfl
      | some v =>
        cases v with
        | apiRequest url method target =>
          have hsome : st.started? = some ⟨url, method, target⟩ :=
            started?_eq_some_iff.2 ⟨a, haction, Action.valid_of_valid? hvalid⟩
          nomatch hstarted.symm.trans hsome
        | toggle | set | alert => rfl
  | none =>
    have hstarted : st.started? = none := by rw [Step.started?, haction]
    refine Or.inr ⟨hstarted, ?_⟩
    cases st with
    | execute a => nomatch haction
    | event tree mode id e =>
      refine Or.inr ⟨nofun, ?_⟩
      rcases step_event (s := s) haction with ⟨name, value, -, hstep⟩ | hstep <;> rw [hstep]
    | resolve n answer =>
      refine Or.inl ⟨n, answer, rfl, ?_⟩
      rw [step]
      -- an answer to no request changes nothing, and setting what is gone does not either
      cases hwaits : s.request? n with
      | none => exact (requests_set_of_gone hwaits).symm
      | some r => rfl

theorem request?_eq_some_iff {n : Nat} {r : Request} :
    s.request? n = some r ↔ s.requests[n]? = some (some r) := Option.join_eq_some_iff

/-- **A request waits after a step** if it waited before and the step does not answer it, or if the
step started it. -/
theorem request?_step {n : Nat} {r : Request} :
    (s.step st).request? n = some r ↔
      (s.request? n = some r ∧ ∀ answer, st ≠ .resolve n answer) ∨
        (st.started? = some r ∧ s.requests.length = n) := by
  rw [request?_eq_some_iff, request?_eq_some_iff]
  rcases requests_step s st with ⟨q, hq, hreq⟩ | ⟨hq, ⟨m, answer, rfl, hreq⟩ | ⟨hne, hreq⟩⟩
  · have hne : ∀ answer, st ≠ .resolve n answer := by
      rintro answer rfl
      nomatch hq
    rw [hreq, hq]
    grind
  · rw [hreq, hq]
    grind
  · rw [hreq, hq]
    simp [hne]

/-- A step gives out a number for the request that it starts, and none otherwise. -/
theorem length_requests_step (s : Running) (st : Step) :
    (s.step st).requests.length = s.requests.length + st.started?.toList.length := by
  rcases requests_step s st with ⟨q, hq, hreq⟩ | ⟨hq, ⟨m, answer, rfl, hreq⟩ | ⟨-, hreq⟩⟩ <;>
    rw [hreq, hq] <;> simp

/-! ## Runs -/

theorem run_append (s : Running) (before after : List Step) :
    s.run (before ++ after) = (s.run before).run after := List.foldl_append

theorem run_concat (s : Running) (steps : List Step) (st : Step) :
    s.run (steps ++ [st]) = (s.run steps).step st := run_append s steps [st]

/-- A step of a run with one more step is the last one, or it stands in the run without it. -/
theorem concat_eq_split_iff {steps before after : List Step} {last x : Step} :
    steps ++ [last] = before ++ x :: after ↔
      (steps = before ∧ last = x ∧ after = []) ∨
        ∃ rest, steps = before ++ x :: rest ∧ after = rest ++ [last] := by
  constructor
  · intro h
    -- the step stands at the end, or further in front
    rcases List.append_eq_append_iff.1 h with ⟨front, rfl, hlast⟩ | ⟨front, rfl, hfront⟩
    · cases front with
      | nil =>
        obtain ⟨rfl, rfl⟩ := List.cons.inj hlast
        exact Or.inl ⟨by simp, rfl, rfl⟩
      | cons y rest => simp at hlast
    · cases front with
      | nil =>
        obtain ⟨rfl, rfl⟩ := List.cons.inj hfront
        exact Or.inl ⟨by simp, rfl, rfl⟩
      | cons y rest =>
        obtain ⟨rfl, rfl⟩ := List.cons.inj hfront
        exact Or.inr ⟨rest, rfl, rfl⟩
  · rintro (⟨rfl, rfl, rfl⟩ | ⟨rest, rfl, rfl⟩)
    · rfl
    · simp

/-! ### Requests that wait -/

/-- **A request that waits** after some steps: one of them started it as the `n`th, and none of those
that came later answered it. -/
def Waits (steps : List Step) (n : Nat) (r : Request) : Prop :=
  ∃ before st after, steps = before ++ st :: after ∧ st.started? = some r ∧
    (before.filterMap Step.started?).length = n ∧ ∀ answer, Step.resolve n answer ∉ after

/-- **One step more**: a request waits on unless it is answered, and a new one begins to wait. -/
theorem waits_concat {steps : List Step} {n : Nat} {r : Request} :
    Waits (steps ++ [st]) n r ↔
      (Waits steps n r ∧ ∀ answer, st ≠ .resolve n answer) ∨
        (st.started? = some r ∧ (steps.filterMap Step.started?).length = n) := by
  constructor
  · rintro ⟨before, x, after, hsplit, hstarted, hn, hafter⟩
    -- the request was started by the last step, or before it
    rcases concat_eq_split_iff.1 hsplit with ⟨rfl, rfl, -⟩ | ⟨rest, rfl, rfl⟩
    · exact Or.inr ⟨hstarted, hn⟩
    · refine Or.inl ⟨⟨before, x, rest, rfl, hstarted, hn, fun answer h => ?_⟩, ?_⟩
      · exact hafter answer (List.mem_append_left _ h)
      · rintro answer rfl
        exact hafter answer (List.mem_append_right _ List.mem_cons_self)
  · rintro (⟨⟨before, x, after, rfl, hstarted, hn, hafter⟩, hst⟩ | ⟨hstarted, hn⟩)
    · refine ⟨before, x, after ++ [st], by simp, hstarted, hn, fun answer h => ?_⟩
      rcases List.mem_append.1 h with h | h
      · exact hafter answer h
      · exact hst answer (List.mem_singleton.1 h).symm
    · exact ⟨steps, st, [], rfl, hstarted, hn, fun _ => List.not_mem_nil⟩

/-- There are as many numbers as requests that were started. -/
theorem length_requests_run (vs : Variables) (steps : List Step) :
    ((start vs).run steps).requests.length = (steps.filterMap Step.started?).length := by
  induction steps using List.reverseRecOn with
  | nil => rfl
  | append_singleton steps st ih =>
    rw [run_concat, length_requests_step, ih, List.filterMap_append, List.length_append]
    cases hst : st.started? <;> simp [hst]

/-- **The requests that wait** after a run. -/
theorem request?_run_iff (vs : Variables) (steps : List Step) (n : Nat) (r : Request) :
    ((start vs).run steps).request? n = some r ↔ Waits steps n r := by
  induction steps using List.reverseRecOn with
  | nil =>
    constructor
    · intro h
      cases h
    · rintro ⟨before, st, after, hsplit, -⟩
      simp at hsplit
  | append_singleton steps st ih =>
    rw [run_concat, request?_step, ih, length_requests_run, waits_concat]

/-- No request that a run starts writes to the empty name. -/
theorem sound_run (vs : Variables) (steps : List Step) : ((start vs).run steps).Sound := by
  intro n r h
  obtain ⟨before, st, after, -, hstarted, -⟩ := (request?_run_iff vs steps n r).1 h
  obtain ⟨a, -, hvalid⟩ := started?_eq_some_iff.1 hstarted
  obtain ⟨url, method, target⟩ := r
  cases hvalid with
  | apiRequest named =>
    intro h
    exact (Action.present_eq_some_iff.1 h).2 rfl

/-! ### The last write -/

/-- **A variable that steps leave alone**. -/
def Keeps (s : Running) (steps : List Step) (name : String) : Prop :=
  ∀ before st after, steps = before ++ st :: after → ∀ value, ¬ (s.run before).Writes st name value

/-- **The last write** of a run to a variable. -/
def LastWrite (s : Running) (steps : List Step) (name : String) (value : Json) : Prop :=
  ∃ before st after, steps = before ++ st :: after ∧ (s.run before).Writes st name value ∧
    (s.run (before ++ [st])).Keeps after name

theorem keeps_nil : s.Keeps [] name := by
  intro before st after hsplit
  simp at hsplit

/-- A variable is left alone by some steps and then by one more. -/
theorem keeps_concat {steps : List Step} :
    s.Keeps (steps ++ [st]) name ↔
      s.Keeps steps name ∧ ∀ value, ¬ (s.run steps).Writes st name value := by
  constructor
  · intro h
    refine ⟨fun before x after hsplit => ?_, h steps st [] rfl⟩
    exact h before x (after ++ [st]) (by simp [hsplit])
  · rintro ⟨hsteps, hst⟩ before x after hsplit
    rcases concat_eq_split_iff.1 hsplit with ⟨rfl, rfl, -⟩ | ⟨rest, rfl, rfl⟩
    · exact hst
    · exact hsteps before x rest rfl

/-- **One step more**: its write is the last, or the last one stays. -/
theorem lastWrite_concat {steps : List Step} :
    s.LastWrite (steps ++ [st]) name value ↔
      (s.run steps).Writes st name value ∨
        (s.LastWrite steps name value ∧ ∀ w, ¬ (s.run steps).Writes st name w) := by
  have hrun : ∀ before x rest, (s.run (before ++ [x])).run rest = s.run (before ++ x :: rest) := by
    intro before x rest
    rw [← run_append, List.append_assoc]
    rfl
  constructor
  · rintro ⟨before, x, after, hsplit, hwrites, hafter⟩
    -- the write was the last step, or one before it
    rcases concat_eq_split_iff.1 hsplit with ⟨rfl, rfl, -⟩ | ⟨rest, rfl, rfl⟩
    · exact Or.inl hwrites
    · obtain ⟨hrest, hlast⟩ := keeps_concat.1 hafter
      rw [hrun] at hlast
      exact Or.inr ⟨⟨before, x, rest, rfl, hwrites, hrest⟩, hlast⟩
  · rintro (hwrites | ⟨⟨before, x, after, rfl, hwrites, hafter⟩, hlast⟩)
    · exact ⟨steps, st, [], rfl, hwrites, keeps_nil⟩
    · refine ⟨before, x, after ++ [st], by simp, hwrites, keeps_concat.2 ⟨hafter, ?_⟩⟩
      rw [hrun]
      exact hlast

/-- **Every variable holds what was last written to it**, and what it held at the start if nothing
was. -/
theorem get?_run_iff (vs : Variables) (steps : List Step) (name : String) (value : Json) :
    Entries.get? ((start vs).run steps).vars name = some value ↔
      (start vs).LastWrite steps name value ∨
        ((start vs).Keeps steps name ∧ Entries.get? vs name = some value) := by
  -- on the steps from the end, since the last write decides
  induction steps using List.reverseRecOn generalizing value with
  | nil =>
    constructor
    · intro h
      exact Or.inr ⟨keeps_nil, h⟩
    · rintro (⟨before, st, after, hsplit, -⟩ | ⟨-, h⟩)
      · simp at hsplit
      · exact h
  | append_singleton steps st ih =>
    rw [run_concat, lastWrite_concat, keeps_concat]
    by_cases h : ∃ w, ((start vs).run steps).Writes st name w
    · obtain ⟨w, hw⟩ := h
      rw [vars_step_of_writes hw, Entries.get?_put, if_pos rfl, Option.some_inj]
      constructor
      · rintro rfl
        exact Or.inl (Or.inl hw)
      · rintro ((hvalue | ⟨-, hnone⟩) | ⟨⟨-, hnone⟩, -⟩)
        · exact (hvalue.unique hw).2
        · exact absurd hw (hnone w)
        · exact absurd hw (hnone w)
    · have hnone : ∀ w, ¬ ((start vs).run steps).Writes st name w := not_exists.1 h
      rw [get?_step_of_not_writes (sound_run vs steps) hnone, ih]
      simp only [hnone, not_false_eq_true, implies_true, and_true, false_or]

/-! ## A page in use -/

/-- Two toggles of a variable leave what it counted as before them. -/
theorem get?_toggle_toggle (s : Running) {st st' : Step} {target : String} (named : target ≠ "")
    (h : st.action? = some (.toggle (some target)))
    (h' : st'.action? = some (.toggle (some target))) :
    Entries.get? ((s.step st).step st').vars target = some (.bool (s.vars.truthy target)) := by
  have hflipped : (s.step st).vars.truthy target = !(s.vars.truthy target) := by
    rw [vars_step_of_writes (.toggle h named), Variables.truthy, Entries.get?_put, if_pos rfl]
    rfl
  rw [vars_step_of_writes (.toggle h' named), Entries.get?_put, if_pos rfl, hflipped, Bool.not_not]

/-- **A page in use**, after any run.

A step that writes stores one value under one name, and any other step leaves the variables as they
were.  Two toggles in a row leave what the variable counted as before them.  Every variable holds what
the last step that wrote it stored there, or what it held at the start if none did.  The requests that
wait, and whose answers are yet to come, are those that a step started and no later one answered. -/
theorem writes_of_run (vs : Variables) (steps : List Step) :
    let s := (start vs).run steps
    (∀ st name value, s.Writes st name value →
      (s.step st).vars = Entries.put s.vars name value ∧
      ∀ other w, s.Writes st other w → other = name ∧ w = value) ∧
    (∀ st, (∀ name value, ¬ s.Writes st name value) → (s.step st).vars = s.vars) ∧
    (∀ st st' target, target ≠ "" → st.action? = some (.toggle (some target)) →
      st'.action? = some (.toggle (some target)) →
      Entries.get? ((s.step st).step st').vars target = some (.bool (s.vars.truthy target))) ∧
    (∀ name value, Entries.get? s.vars name = some value ↔
      (start vs).LastWrite steps name value ∨
        ((start vs).Keeps steps name ∧ Entries.get? vs name = some value)) ∧
    ∀ n r, s.request? n = some r ↔ Waits steps n r := by
  refine ⟨fun st name value h => ⟨vars_step_of_writes h, fun _ _ => h.unique⟩, fun st h => ?_,
    fun st st' target named h h' => get?_toggle_toggle _ named h h', get?_run_iff vs steps,
    request?_run_iff vs steps⟩
  rcases writes_or_vars_step (sound_run vs steps) st with ⟨name, value, hwrites⟩ | hidle
  · exact absurd hwrites (h name value)
  · exact hidle

/-- A request, and a set of its target before the answer comes. -/
def edited : List Step :=
  [.execute (.apiRequest (some "https://example.com") none (some "v")),
    .execute (.set (some "v") (some (.string "edited meanwhile")))]

/-- The answer that comes late is written over what was set meanwhile. -/
theorem writes_of_run_edited :
    Entries.get? ((start [("v", .null)]).run (edited ++ [.resolve 0 (some "1")])).vars "v"
      = some (.string "1") := by
  have hread : Json.ofText? "1" = some (.number (.whole 1)) := by decide +kernel
  have hpretty : (Json.number (.whole 1)).pretty = "1" := by decide +kernel
  have hwrites : ((start [("v", .null)]).run edited).Writes (.resolve 0 (some "1")) "v"
      (.string (Json.number (.whole 1)).pretty) := .answer rfl rfl (by decide) hread
  rw [hpretty] at hwrites
  obtain ⟨-, -, -, hlast, -⟩ := writes_of_run [("v", .null)] (edited ++ [.resolve 0 (some "1")])
  exact (hlast _ _).2 (Or.inl ⟨edited, _, [], rfl, hwrites, keeps_nil⟩)

-- An answer that is not JSON leaves the text of the payload.
example :
    Entries.get? ((start []).run [.execute (.apiRequest (some "https://example.com") none (some "v")),
      .resolve 0 (some "<html>")]).vars "v"
      = some (.string "\x7b\n  \"status\": \"ok\",\n  \"data\": \"Mock Data\"\n\x7d") := by
  decide +kernel

end Running
end PageBuilder
