/-
  Requests over the network, as values.

  A client sends calls; what comes back is a reply, or nothing if the call fails on the way.  Whatever
  the status of a reply is, it is a reply.
-/
import PageBuilder.Choice

namespace PageBuilder

/-- How a client sends requests. -/
structure ClientOptions where
  /-- Milliseconds after which a request fails. -/
  timeout : Nat := 10000
  userAgent : String := "orion/0.1.0"
deriving DecidableEq, Repr

/-- A request to be sent. -/
structure Call where
  method : HttpMethod
  url : String
  /-- The name the client goes by, if it tells one. -/
  userAgent : Option String
  /-- The key to a language model. -/
  key : Option String
  body : Option Json
  /-- Milliseconds after which it fails. -/
  timeout : Nat
deriving DecidableEq

/-- What comes back. -/
structure Reply where
  status : Nat
  body : String
deriving DecidableEq, Repr

/-- Whether a reply tells of an error. -/
def Reply.isError (r : Reply) : Bool := 400 ≤ r.status && r.status < 600

/-- Whether a text can be sent as a header. -/
def Call.isHeader (s : String) : Bool :=
  s.toList.all fun c => c == '\t' || (32 ≤ c.toNat && c.toNat != 127)

end PageBuilder
