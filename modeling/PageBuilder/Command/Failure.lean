/-
  Why a command fails, and what is said then.
-/
import PageBuilder.Files.Directory
import PageBuilder.Markup.Attribute
import PageBuilder.Session.Basic

namespace PageBuilder

/-- Why a command fails. -/
inductive Failure where
  | configUnreadable (path : String)
  /-- The page cannot be read. -/
  | pageUnreadable (path : String)
  /-- The variables cannot be read. -/
  | stateUnreadable (path : String)
  /-- A file does not spell what it should. -/
  | malformed (path : String)
  /-- A directory cannot be made. -/
  | notMade (path : String)
  | notWritten (path : String)
  | pageExists (path : String)
  | noNode (id : String)
  | unknownKind (name : String)
  | unknownDialect (e : Markup.Dialect.Unknown)
  | valueMissing
  | badUserAgent
  /-- The environment variable of the key is not set. -/
  | keyMissing (variableName : String)
  | noProject (id : String)
  | projectsInaccessible (path : String) (cause : FileError)
  | projectsCorrupt (path : String)
  | session (e : SessionError)
deriving DecidableEq, Repr

namespace Failure

/-- Names of the kinds, for a message. -/
def kindNames : String := String.intercalate ", " ((Choice.all (α := Kind)).map Kind.name)

/-- **What is said** of a failure. -/
def message : Failure → String
  | configUnreadable path => "failed to read " ++ path
  | pageUnreadable path => "failed to read " ++ path ++ " (run `orion init` first?)"
  | stateUnreadable path => "failed to read " ++ path
  | malformed path => "failed to parse " ++ path
  | notMade path => "failed to create " ++ path
  | notWritten path => "failed to write " ++ path
  | pageExists path => path ++ " already exists (use --force to overwrite)"
  | noNode id => "no node with id '" ++ id ++ "'"
  | unknownKind name =>
    "unknown component kind '" ++ name ++ "' (expected one of: " ++ kindNames ++ ")"
  | unknownDialect e => e.message
  | valueMissing => "`change` needs --value"
  | badUserAgent => "Transport error: builder error: failed to parse header value"
  | keyMissing name => "set " ++ name ++ " to use AI generation"
  | noProject id => "no saved project with id '" ++ id ++ "'"
  | projectsInaccessible path cause => "Failed to access " ++ path ++ ": " ++ cause.message
  | projectsCorrupt path => "Corrupt project file " ++ path
  | session e => e.message

end Failure
end PageBuilder
