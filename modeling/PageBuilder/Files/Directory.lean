/-
  A directory of files.

  Programs:       `Directory.read`, `exists`, `make`, `write`.
  Specification:  a path is followed piece by piece, every step starts from a directory, and no
                  piece is longer than a name may be.  A directory is there if it was made or if a
                  file lies under it.
  Main statement: reading a file gives what was written to it last (`read_of_write`).
-/
import PageBuilder.Entries
import PageBuilder.Files.Path

namespace PageBuilder

/-- Why a file cannot be read or written. -/
inductive FileError where
  | missing
  | notADirectory
  | isADirectory
  | alreadyThere
  /-- A name, or the whole path, has too many bytes. -/
  | tooLong
  /-- The character NUL stands in the path. -/
  | holdsNul
  /-- Another reason, in the words of the system. -/
  | other (text : String)
deriving DecidableEq, Repr

/-- The words of the system for an error. -/
def FileError.message : FileError → String
  | .missing => "No such file or directory (os error 2)"
  | .notADirectory => "Not a directory (os error 20)"
  | .isADirectory => "Is a directory (os error 21)"
  | .alreadyThere => "File exists (os error 17)"
  | .tooLong => "File name too long (os error 36)"
  | .holdsNul => "file name contained an unexpected NUL byte"
  | .other text => text

/-- A place in a directory: the names on the way to it. -/
abbrev Place := List String

/-- Files by their places, and the directories that were made. -/
structure Directory where
  files : Entries Place String
  made : List Place
deriving DecidableEq

namespace Directory

/-- What is found at a place. -/
inductive Found where
  | nothing
  | directory
  | file (text : String)
deriving DecidableEq

/-- Whether a directory is at a place: the top, one that was made, or one with something in it. -/
def hasDirectory (d : Directory) (p : Place) : Bool :=
  p.isEmpty || d.made.contains p || d.files.any fun e => p.isPrefixOf e.1

/-- **What is at a place**. -/
def at? (d : Directory) (p : Place) : Found :=
  match Entries.get? d.files p with
  | some text => .file text
  | none => if d.hasDirectory p then .directory else .nothing

/-- A directory that can be gone on from, or the reason why not. -/
def enter (d : Directory) (p : Place) : Except FileError Unit :=
  match d.at? p with
  | .nothing => .error .missing
  | .file _ => .error .notADirectory
  | .directory => .ok ()

/-- The place one piece further on. -/
def next (p : Place) (piece : String) : Place :=
  if Path.isIdle piece then p
  else if piece = ".." then p.dropLast
  else p ++ [piece]

/-- Follow pieces from a place. -/
def follow (d : Directory) (p : Place) : List String → Except FileError Place
  | [] => .ok p
  | piece :: r => do
    d.enter p
    if Path.fits piece then d.follow (next p piece) r else .error .tooLong

/-- Refuse a path that the system does not even look at. -/
def accept (path : String) : Except FileError Unit :=
  if path.toList.contains '\x00' then .error .holdsNul
  else if Path.lengthLimit < path.utf8ByteSize then .error .tooLong
  else if path = "" then .error .missing
  else .ok ()

/-- **The place of a path**. -/
def place (d : Directory) (path : String) : Except FileError Place := do
  accept path
  d.follow [] (Path.pieces path)

/-! ## Operations -/

/-- **Read** a file. -/
def read (d : Directory) (path : String) : Except FileError String := do
  match d.at? (← d.place path) with
  | .nothing => .error .missing
  | .directory => .error .isADirectory
  | .file text => .ok text

/-- Whether a path leads to something. -/
def «exists» (d : Directory) (path : String) : Bool :=
  match d.place path with
  | .ok p => d.at? p != .nothing
  | .error _ => false

/-- Make the directories on the way through pieces; those made before one that cannot be stay. -/
def makeFrom (d : Directory) (p : Place) : List String → Except FileError Unit × Directory
  | [] => (.ok (), d)
  | piece :: r =>
    if Path.fits piece then
      let p := next p piece
      match d.at? p with
      | .nothing => makeFrom { d with made := d.made ++ [p] } p r
      | .directory => makeFrom d p r
      | .file _ => (.error (if r.all (· == "") then .alreadyThere else .notADirectory), d)
    else (.error .tooLong, d)

/-- **Make a directory** and those around it, as far as they are missing. -/
def make (d : Directory) (path : String) : Except FileError Unit × Directory :=
  if path = "" then (.ok (), d)
  else
    match accept path with
    | .ok () => d.makeFrom [] (Path.pieces path)
    | .error e => (.error e, d)

/-- **Write** a file; the directory around it has to be there, and its path ends in no slash. -/
def write (d : Directory) (path text : String) : Except FileError Directory := do
  accept path
  if Path.endsInSlash path then
    let _ ← d.follow [] (Path.around path)
    .error .isADirectory
  else
    let p ← d.place path
    match d.at? p with
    | .directory => .error .isADirectory
    | _ => .ok { d with files := Entries.put d.files p text }

/-! ## Reading after writing -/

@[simp] theorem next_idle {p : Place} {piece : String} (h : Path.isIdle piece = true) :
    next p piece = p := by simp [next, h]

theorem at?_put (d : Directory) (p : Place) (text : String) :
    { d with files := Entries.put d.files p text }.at? p = .file text := by
  simp [at?, Entries.get?_put]

theorem hasDirectory_put (d : Directory) (p q : Place) (text : String)
    (h : d.hasDirectory q = true) :
    { d with files := Entries.put d.files p text }.hasDirectory q = true := by
  simp only [hasDirectory, Bool.or_eq_true, List.any_eq_true] at h ⊢
  rcases h with h | ⟨e, he, hq⟩
  · exact .inl h
  · have hk : e.1 ∈ Entries.keys (Entries.put d.files p text) := by
      rw [Entries.keys_put]
      have : e.1 ∈ Entries.keys d.files := List.mem_map_of_mem he
      split <;> simp [this]
    obtain ⟨e', he', h'⟩ := List.mem_map.1 hk
    exact .inr ⟨e', he', h' ▸ hq⟩

theorem at?_put_of_directory (d : Directory) {p q : Place} (text : String)
    (hp : d.at? p ≠ .directory) (hq : d.at? q = .directory) :
    { d with files := Entries.put d.files p text }.at? q = .directory := by
  have hne : p ≠ q := fun e => hp (e ▸ hq)
  unfold at? at hq ⊢
  simp only [Entries.get?_put, hne, if_false] at hq ⊢
  split at hq
  · simp at hq
  · rename_i h
    have hd : d.hasDirectory q = true := by
      cases hc : d.hasDirectory q
      · simp [hc] at hq
      · rfl
    simp [hasDirectory_put d p q text hd]

theorem follow_put (d : Directory) {p : Place} (text : String) (hp : d.at? p ≠ .directory)
    (pieces : List String) (q r : Place) (h : d.follow q pieces = .ok r) :
    { d with files := Entries.put d.files p text }.follow q pieces = .ok r := by
  induction pieces generalizing q with
  | nil => exact h
  | cons piece ps ih =>
    have hq : d.at? q = .directory := by
      cases hd : d.at? q <;> simp [follow, enter, hd, bind, Except.bind] at h ⊢
    have hq' := at?_put_of_directory d text hp hq
    simp only [follow, enter, hq, hq', bind, Except.bind] at h ⊢
    split
    · rename_i hf
      rw [if_pos hf] at h
      exact ih _ h
    · rename_i hf
      rw [if_neg hf] at h
      exact h

/-- **Reading gives back** what was written. -/
theorem read_of_write {d d' : Directory} {path text : String} (h : d.write path text = .ok d') :
    d'.read path = .ok text := by
  unfold write at h
  cases ha : accept path with
  | error e => simp [ha, bind, Except.bind] at h
  | ok u =>
    simp only [ha, bind, Except.bind] at h
    split at h
    · split at h <;> simp at h
    · cases hp : d.place path with
      | error e => simp [hp] at h
      | ok p =>
        simp only [hp] at h
        split at h
        · simp at h
        · rename_i hd
          cases h
          have hf : d.follow [] (Path.pieces path) = .ok p := by
            simpa [place, ha, bind, Except.bind] using hp
          have hf' := follow_put d text hd _ _ _ hf
          simp [read, place, ha, bind, Except.bind, hf', at?_put]

/-- A small directory, for the examples. -/
def sample : Directory := ⟨[(["a", "b"], "x")], []⟩

example : sample.read "./a//b" = .ok "x" := rfl
example : sample.read "a" = .error .isADirectory := rfl
example : sample.read "a/b/c" = .error .notADirectory := rfl
example : sample.write "n/x" "" = .error .missing := rfl
example : sample.write "n/" "" = .error .isADirectory := rfl
example : (sample.make "a/b").1 = .error .alreadyThere := rfl

end Directory
end PageBuilder
