/-
  Programs that ask something of the system they run on.

  Program:        `Program.run`.
  Specification:  a program is either done, or has failed, or asks for one thing and goes on with the
                  answer.  What it does is settled by the answers alone; so the same program runs on
                  a real system and on a `Host`, which is a plain value.
-/
import PageBuilder.Command.Failure
import PageBuilder.Network

namespace PageBuilder

/-- One thing asked of the system. -/
inductive Effect where
  /-- The text of a file. -/
  | read (path : String)
  /-- Whether a path leads to something. -/
  | «exists» (path : String)
  /-- Make a directory and those around it. -/
  | make (path : String)
  | write (path text : String)
  /-- The value of an environment variable. -/
  | environment (name : String)
  /-- Send a request; there is no reply if it fails. -/
  | exchange (c : Call)
  /-- Suffixes for generated ids, none of them in use. -/
  | offer (count : Nat)
  /-- Suffixes of the last offer are in use from now on. -/
  | keep (count : Nat)
  /-- Milliseconds since 1970. -/
  | clock
  /-- Print a line. -/
  | print (line : String)
deriving DecidableEq

/-- What the system answers. -/
@[reducible] def Effect.Answer : Effect → Type
  | .read _ => Except FileError String
  | .exists _ => Bool
  | .make _ => Except FileError Unit
  | .write _ _ => Except FileError Unit
  | .environment _ => Option String
  | .exchange _ => Option Reply
  | .offer _ => Node.Supply
  | .keep _ => Unit
  | .clock => Int
  | .print _ => Unit

/-- **A program** with a result. -/
inductive Program (α : Type) where
  | done (a : α)
  | failed (f : Failure)
  | ask (e : Effect) (go : e.Answer → Program α)

namespace Program

variable {α β : Type}

/-- One program, and another one after it. -/
def andThen (f : α → Program β) : Program α → Program β
  | done a => f a
  | failed e => failed e
  | ask e go => ask e fun a => (go a).andThen f

instance : Monad Program where
  pure := done
  bind p f := p.andThen f

/-- Ask for one thing. -/
def request (e : Effect) : Program e.Answer := ask e done

/-- The value of an option, which must have one. -/
def require (f : Failure) : Option α → Program α
  | some a => done a
  | none => failed f

/-- The value of an outcome, which must not be an error. -/
def accept {ε : Type} (fail : ε → Failure) : Except ε α → Program α
  | .ok a => done a
  | .error e => failed (fail e)

/-! ## A system that is a value -/

end Program

/-- A system to run on. -/
structure Host where
  directory : Directory
  environment : Entries String String
  /-- The reply to the request of a number, if there is one. -/
  network : Nat → Call → Option Reply
  /-- Requests sent so far. -/
  sent : Nat
  /-- The suffix of a number; those below `used` are in use. -/
  suffix : Nat → String
  used : Nat
  clock : Int
  /-- Lines printed so far. -/
  printed : List String

namespace Host

/-- Take over a directory that was changed. -/
def changed (h : Host) : Except FileError Directory → Except FileError Unit × Host
  | .ok directory => (.ok (), { h with directory })
  | .error e => (.error e, h)

/-- What stands behind a name and an equals sign in the line `key=value`. -/
def behindName? (name key value : String) : Option String :=
  ((name ++ "=").toList.isPrefixOf? (key ++ "=" ++ value).toList).map String.ofList

/-- The value of a variable.  The environment is read as lines, of which the first one with the name
in front counts; so a name may hold an equals sign, but the empty name has no value. -/
def environmentValue? (h : Host) (name : String) : Option String :=
  if name = "" then none else h.environment.findSome? fun e => behindName? name e.1 e.2

example : behindName? "A" "A" "B=C" = some "B=C" ∧ behindName? "A=B" "A" "B=C" = some "C" := by
  decide +kernel

/-- **The answer** to one thing asked. -/
def answer (h : Host) : (e : Effect) → e.Answer × Host
  | .read path => (h.directory.read path, h)
  | .exists path => (h.directory.exists path, h)
  | .make path => ((h.directory.make path).1, { h with directory := (h.directory.make path).2 })
  | .write path text => h.changed (h.directory.write path text)
  | .environment name => (h.environmentValue? name, h)
  | .exchange c => (h.network h.sent c, { h with sent := h.sent + 1 })
  | .offer count => ((List.range count).map fun i => h.suffix (h.used + i), h)
  | .keep count => ((), { h with used := h.used + count })
  | .clock => (h.clock, h)
  | .print line => ((), { h with printed := h.printed ++ [line] })

end Host

namespace Program

variable {α β : Type}

/-- **The run** of a program on a host: its result, and the host afterwards. -/
def run (h : Host) : Program α → Except Failure α × Host
  | done a => (.ok a, h)
  | failed f => (.error f, h)
  | ask e go => run (h.answer e).2 (go (h.answer e).1)

@[simp] theorem run_pure (h : Host) (a : α) : run h (pure a) = (.ok a, h) := rfl

@[simp] theorem run_done (h : Host) (a : α) : run h (done a) = (.ok a, h) := rfl

@[simp] theorem run_failed (h : Host) (f : Failure) :
    run h (failed f : Program α) = (.error f, h) := rfl

@[simp] theorem run_request (h : Host) (e : Effect) :
    run h (request e) = (.ok (h.answer e).1, (h.answer e).2) := rfl

/-- What comes after goes on where the first one ended. -/
theorem run_bind (h : Host) (p : Program α) (f : α → Program β) :
    run h (p >>= f) = match run h p with
      | (.ok a, h) => run h (f a)
      | (.error e, h) => (.error e, h) := by
  show run h (p.andThen f) = _
  induction p generalizing h with
  | done a => rfl
  | failed e => rfl
  | ask e go ih => exact ih _ _

end Program
end PageBuilder
