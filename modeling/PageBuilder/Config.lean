/-
  The configuration: where the page, its state and the saved projects are kept, and how requests are
  sent.

  Program:        `Config.ofText?`.
  Specification:  four sections, each with keys of its own; a key that is not written keeps its
                  default, one that is not known is passed over, and one that holds a value of the
                  wrong kind makes the whole text wrong.
-/
import PageBuilder.Network
import PageBuilder.Toml.Reader

namespace PageBuilder

/-- Where files are kept. -/
structure StorageConfig where
  /-- The page being edited. -/
  page : String := "orion.schema.json"
  /-- The saved projects. -/
  projects : String := ".orion/projects.json"
  /-- The variables of the page in use. -/
  state : String := ".orion/state.json"
deriving DecidableEq, Repr

/-- How requests are sent. -/
structure NetworkConfig where
  /-- Seconds after which a request fails. -/
  timeout : Nat := 10
  userAgent : Option String := none
deriving DecidableEq, Repr

/-- Which language model is asked. -/
structure ModelConfig where
  endpoint : Option String := none
  model : Option String := none
  /-- The environment variable that holds the key. -/
  keyVariable : String := "GEMINI_API_KEY"
deriving DecidableEq, Repr

/-- **The configuration**. -/
structure Config where
  storage : StorageConfig := {}
  network : NetworkConfig := {}
  model : ModelConfig := {}
  /-- What is logged. -/
  logFilter : Option String := none
deriving DecidableEq, Repr

namespace Config

open Toml (Item Table)

/-! ## Reading -/

/-- A section; one that is not written is empty. -/
def section? (t : Table) (name : String) : Option Table :=
  match Entries.get? t name with
  | none => some []
  | some (.table _ es) => some es
  | some (.scalar _) => none

/-- A text, if one is written. -/
def text? (t : Table) (k : String) : Option (Option String) :=
  match Entries.get? t k with
  | none => some none
  | some (.scalar (.string s)) => some (some s)
  | some _ => none

/-- A text, or its default. -/
def textOr? (t : Table) (k dflt : String) : Option String := (text? t k).map (·.getD dflt)

/-- A count, or its default. -/
def countOr? (t : Table) (k : String) (dflt : Nat) : Option Nat :=
  match Entries.get? t k with
  | none => some dflt
  | some (.scalar (.integer i)) => if 0 ≤ i then some i.toNat else none
  | some _ => none

def storageOf? (t : Table) : Option StorageConfig := do
  let dflt : StorageConfig := {}
  some ⟨← textOr? t "schema_path" dflt.page, ← textOr? t "projects_path" dflt.projects,
    ← textOr? t "state_path" dflt.state⟩

def networkOf? (t : Table) : Option NetworkConfig := do
  let dflt : NetworkConfig := {}
  some ⟨← countOr? t "timeout_secs" dflt.timeout, ← text? t "user_agent"⟩

def modelOf? (t : Table) : Option ModelConfig := do
  let dflt : ModelConfig := {}
  some ⟨← text? t "endpoint", ← text? t "model", ← textOr? t "api_key_env" dflt.keyVariable⟩

/-- **The reader** of a configuration. -/
def ofText? (s : String) : Option Config := do
  let t ← Toml.ofText? s
  some ⟨← storageOf? (← section? t "storage"), ← networkOf? (← section? t "network"),
    ← modelOf? (← section? t "ai"), ← text? (← section? t "log") "filter"⟩

end Config

/-- The client that is configured; its time is a number of 64 bits. -/
def NetworkConfig.client (c : NetworkConfig) : ClientOptions where
  timeout := c.timeout * 1000 % Json.Number.wordSize
  userAgent := c.userAgent.getD ({} : ClientOptions).userAgent

example : Config.ofText? "" = some {} := by decide +kernel
example : (Config.ofText? "network.timeout_secs = 3").map (·.network.timeout) = some 3 := by
  decide +kernel

end PageBuilder
