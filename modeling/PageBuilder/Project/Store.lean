/-
  Where projects are kept: in memory, or as one JSON array in a file.

  Programs:       `Store.list`, `Store.save`, `Store.load`.
  Specification:  projects are listed in the order in which they were saved.  A file that is missing
                  or blank holds none; saving reads the whole file, and writes it whole or not at all.
-/
import PageBuilder.Project.Basic

namespace PageBuilder

/-- What is found at the path of a file. -/
inductive FileContent where
  | missing
  /-- There is something that cannot be read. -/
  | unreadable
  | text (s : String)
deriving DecidableEq, Repr

/-- Why projects cannot be listed or saved. -/
inductive StorageError where
  | inaccessible
  /-- The file does not spell projects. -/
  | corrupt
deriving DecidableEq, Repr

namespace Project

/-- The projects in a file. -/
def listOfFile : FileContent → Except StorageError (List Project)
  | .missing => .ok []
  | .unreadable => .error .inaccessible
  | .text s =>
    if Text.allBlank s then .ok []
    else
      match listOfText? s with
      | some ps => .ok ps
      | none => .error .corrupt

/-- A place for projects. -/
inductive Store where
  | memory (projects : List Project)
  | file (content : FileContent)
deriving DecidableEq

namespace Store

/-- **Every project**, the oldest first. -/
def list : Store → Except StorageError (List Project)
  | .memory ps => .ok ps
  | .file c => listOfFile c

/-- **Save** one more project. -/
def save (p : Project) : Store → Except StorageError Store
  | .memory ps => .ok (.memory (ps ++ [p]))
  | .file c =>
    match listOfFile c with
    | .ok ps => .ok (.file (.text (listText (ps ++ [p]))))
    | .error e => .error e

/-- **The project** with an id, if there is one. -/
def load (s : Store) (id : String) : Except StorageError (Option Project) :=
  match s.list with
  | .ok ps => .ok (find? ps id)
  | .error e => .error e

end Store
end Project
end PageBuilder
