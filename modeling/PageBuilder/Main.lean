/-
  The command line on a real system.

  Everything a command decides is in its program; here the system answers what the program asks for.
  No request leaves the machine: an exchange is answered as one that failed.
-/
import PageBuilder.Command.Run
import Std.Time.DateTime.Timestamp

namespace PageBuilder

/-- The error of a file. -/
def FileError.ofSystem : IO.Error → FileError
  | .noFileOrDirectory .. => .missing
  | .alreadyExists .. => .alreadyThere
  | .inappropriateType _ code _ => if code = 21 then .isADirectory else .notADirectory
  | e@(.invalidArgument _ code _) =>
    if code = 36 then .tooLong else .other (toString e)
  | e => .other (toString e)

/-- Do something with a file, if the system takes its path. -/
def onFile {α : Type} (path : String) (act : IO α) : IO (Except FileError α) := do
  match Directory.accept path with
  | .error e => return .error e
  | .ok () =>
    match ← act.toBaseIO with
    | .ok a => return .ok a
    | .error e => return .error (.ofSystem e)

/-- Whether a path leads to something. -/
def leadsSomewhere (path : String) : IO Bool := do
  match ← onFile path (IO.FS.Handle.mk path .read) with
  | .error .missing | .error .notADirectory | .error .tooLong | .error .holdsNul => return false
  | _ => return true

/-- The characters of suffixes. -/
def suffixCharacters : Array Char := "0123456789abcdef".toList.toArray

/-- A suffix, at random. -/
def randomSuffix : IO String := do
  let cs ← (List.range 9).mapM fun _ => do
    return suffixCharacters.getD (← IO.rand 0 (suffixCharacters.size - 1)) '0'
  return String.ofList cs

/-- **The answer** of the system to one thing asked. -/
def Effect.onSystem : (e : Effect) → IO e.Answer
  | .read path => onFile path (IO.FS.readFile path)
  | .exists path => leadsSomewhere path
  | .make path => onFile path (IO.FS.createDirAll path)
  | .write path text => onFile path (IO.FS.writeFile path text)
  | .environment name => IO.getEnv name
  | .exchange _ => return none
  | .offer count => (List.range count).mapM fun _ => randomSuffix
  | .keep _ => return ()
  | .clock => return (← Std.Time.Timestamp.now).toMillisecondsSinceUnixEpoch.val
  | .print line => IO.println line

/-- Run a program on the system. -/
def Program.onSystem {α : Type} : Program α → IO (Except Failure α)
  | done a => return .ok a
  | failed f => return .error f
  | ask e go => do (go (← e.onSystem)).onSystem

end PageBuilder

open PageBuilder

/-- The code with which the process ends: 1 if the command fails, 2 if there is none. -/
def main (words : List String) : IO UInt32 := do
  match Program.ofWords? words with
  | none =>
    IO.eprintln CommandLine.topLevel.page.text
    return 2
  | some p =>
    match ← p.onSystem with
    | .ok () => return 0
    | .error f =>
      IO.eprintln ("Error: " ++ f.message)
      return 1
