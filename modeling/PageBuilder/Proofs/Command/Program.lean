/-
  Programs that come to their end, and the files they leave.

  Specification:  `exists_of_run_bind` and its kin — what is known of the parts of a program that came
                  to its end; `read_of_writeText` — a file that was written reads as what was written;
                  `run_loadPage`, `run_loadState` — the page and the variables in a file.
-/
import PageBuilder.Command.Run
import PageBuilder.Proofs.Variables.Text

namespace PageBuilder.Program

variable {α β : Type} {h h' : Host}

/-! ## Parts of a program -/

/-- **One program and another one after it** both came to their end. -/
theorem exists_of_run_bind {p : Program α} {f : α → Program β} {b : β}
    (hrun : run h (p >>= f) = (.ok b, h')) :
    ∃ a mid, run h p = (.ok a, mid) ∧ run mid (f a) = (.ok b, h') := by
  rw [run_bind] at hrun
  split at hrun
  · next a mid hp => exact ⟨a, mid, hp, hrun⟩
  · cases (Prod.mk.inj hrun).1

theorem eq_of_run_pure {a b : α} (hrun : run h (pure a : Program α) = (.ok b, h')) :
    a = b ∧ h = h' := by
  obtain ⟨hresult, hhost⟩ := Prod.mk.inj hrun
  exact ⟨Except.ok.inj hresult, hhost⟩

/-- What is required is there if the program goes on. -/
theorem eq_of_run_require {f : Failure} {o : Option α} {a : α}
    (hrun : run h (require f o) = (.ok a, h')) : o = some a ∧ h = h' := by
  cases o with
  | none => cases (Prod.mk.inj hrun).1
  | some b =>
    obtain ⟨rfl, hhost⟩ := eq_of_run_pure hrun
    exact ⟨rfl, hhost⟩

theorem run_require_ite (h : Host) (f : Failure) (p : Prop) [Decidable p] (a : α) :
    run h (require f (if p then some a else none)) = (if p then .ok a else .error f, h) := by
  split <;> rfl

/-- What is accepted went well if the program goes on. -/
theorem eq_of_run_accept {ε : Type} {fail : ε → Failure} {x : Except ε α} {a : α}
    (hrun : run h (accept fail x) = (.ok a, h')) : x = .ok a ∧ h = h' := by
  cases x with
  | error e => cases (Prod.mk.inj hrun).1
  | ok b =>
    obtain ⟨rfl, hhost⟩ := eq_of_run_pure hrun
    exact ⟨rfl, hhost⟩

theorem not_run_failed {f : Failure} {a : α} : run h (failed f : Program α) ≠ (.ok a, h') := by
  intro hrun
  cases (Prod.mk.inj hrun).1

/-- What is asked is answered. -/
theorem eq_of_run_request {e : Effect} {a : e.Answer} (hrun : run h (request e) = (.ok a, h')) :
    h.answer e = (a, h') := by
  obtain ⟨hresult, hhost⟩ := Prod.mk.inj hrun
  exact Prod.ext (Except.ok.inj hresult) hhost

/-! ## Files -/

/-- What may change the files. -/
def changesFiles : Effect → Bool
  | .make _ | .write _ _ => true
  | _ => false

/-- What else is asked leaves the files as they are. -/
theorem directory_of_run_request {e : Effect} {a : e.Answer} (he : changesFiles e = false)
    (hrun : run h (request e) = (.ok a, h')) : h'.directory = h.directory := by
  have hhost : (h.answer e).2 = h' := congrArg Prod.snd (eq_of_run_request hrun)
  rw [← hhost]
  cases e with
  | make | write => cases he
  | read | «exists» | environment | exchange | offer | keep | clock | print => rfl

theorem run_readFile (h : Host) (path : String) :
    run h (readFile path) = (.ok (h.directory.read path), h) := rfl

/-- **A file that was written** reads as what was written. -/
theorem read_of_writeFile {path text : String} {notMade : String → FileError → Failure}
    {notWritten : FileError → Failure}
    (hrun : run h (writeFile path text notMade notWritten) = (.ok (), h')) :
    h'.directory.read path = .ok text := by
  have hwrite : ∀ {h : Host},
      run h (request (.write path text) >>= fun r => accept notWritten r) = (.ok (), h') →
        h'.directory.read path = .ok text := by
    intro h hrun
    obtain ⟨r, mid, hasked, haccepted⟩ := exists_of_run_bind hrun
    obtain ⟨rfl, rfl⟩ := eq_of_run_accept haccepted
    have hanswer : h.changed (h.directory.write path text) = (.ok (), mid) :=
      eq_of_run_request hasked
    cases hdirectory : h.directory.write path text with
    | error e =>
      rw [hdirectory] at hanswer
      cases (Prod.mk.inj hanswer).1
    | ok d =>
      rw [hdirectory] at hanswer
      rw [← (Prod.mk.inj hanswer).2]
      exact Directory.read_of_write hdirectory
  unfold writeFile at hrun
  -- a directory over the file is made first if there is one
  split at hrun
  · obtain ⟨made, mid, -, hrun⟩ := exists_of_run_bind hrun
    obtain ⟨u, mid', -, hrun⟩ := exists_of_run_bind hrun
    exact hwrite hrun
  · exact hwrite hrun

theorem read_of_writeText {path text : String} (hrun : run h (writeText path text) = (.ok (), h')) :
    h'.directory.read path = .ok text := read_of_writeFile hrun

/-! ## The page -/

variable {path : String}

/-- **The page** in a file that can be read. -/
theorem run_loadPage {text : String} (hread : h.directory.read path = .ok text) :
    run h (loadPage path) = run h (require (.malformed path) (Node.ofText? text)) := by
  rw [loadPage, run_bind, run_readFile, hread]
  rfl

/-- A page that was read leaves the host as it was, and is legible. -/
theorem legible_of_loadPage {page : Node} (hrun : run h (loadPage path) = (.ok page, h')) :
    h = h' ∧ page.Legible := by
  obtain ⟨r, mid, hasked, hrun⟩ := exists_of_run_bind hrun
  obtain ⟨-, rfl⟩ := Prod.mk.inj hasked
  obtain ⟨text, mid, haccepted, hrun⟩ := exists_of_run_bind hrun
  obtain ⟨-, rfl⟩ := eq_of_run_accept haccepted
  obtain ⟨hpage, hhost⟩ := eq_of_run_require hrun
  exact ⟨hhost, Node.legible_of_ofText? hpage⟩

/-- **A legible page that was written** is read as it is, or nests too deep. -/
theorem run_loadPage_pretty {page : Node} (hpage : page.Legible)
    (hn : ∀ n ∈ page.toJson.numbers, n.Survives)
    (hread : h.directory.read path = .ok page.pretty) :
    run h (loadPage path)
      = (if page.toJson.depth ≤ Json.maxDepth then .ok page else .error (.malformed path), h) := by
  rw [run_loadPage hread, hpage.ofText?_pretty hn, run_require_ite]

/-! ## The variables -/

/-- **The variables** in a file that can be read. -/
theorem run_loadState {text : String} (hread : h.directory.read path = .ok text) :
    run h (loadState path) = run h (require (.malformed path) (Variables.ofText? text)) := by
  rw [loadState, run_bind, run_readFile, hread]

/-- Variables that were read leave the host as it was, and are tidy. -/
theorem isTidy_of_loadState {vs : Variables} (hrun : run h (loadState path) = (.ok vs, h')) :
    h = h' ∧ (Json.object vs).isTidy = true := by
  obtain ⟨r, mid, hasked, hrun⟩ := exists_of_run_bind hrun
  obtain ⟨-, rfl⟩ := Prod.mk.inj hasked
  split at hrun
  · obtain ⟨rfl, hhost⟩ := eq_of_run_pure hrun
    exact ⟨hhost, rfl⟩
  · exact absurd hrun not_run_failed
  · obtain ⟨hvs, hhost⟩ := eq_of_run_require hrun
    exact ⟨hhost, Variables.isTidy_of_ofText? hvs⟩

/-- **Tidy variables that were written** are read as they are, or nest too deep. -/
theorem run_loadState_text {vs : Variables} (hvs : (Json.object vs).isTidy = true)
    (hn : ∀ n ∈ (Json.object vs).numbers, n.Survives)
    (hread : h.directory.read path = .ok vs.text) :
    run h (loadState path)
      = (if (Json.object vs).depth ≤ Json.maxDepth then .ok vs else .error (.malformed path), h) := by
  rw [run_loadState hread, Variables.ofText?_text hvs hn, run_require_ite]

end PageBuilder.Program
