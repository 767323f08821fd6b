/-!
# Answers of web servers

A request is answered with a status and a body.  A status from 200 to 299 means
success.
-/

namespace BridgeFinder.Http

/-- The status of a success. -/
def isSuccess (status : Nat) : Bool :=
  200 ≤ status && status < 300

/-- A complete answer. -/
structure Response where
  status : Nat
  body : String
deriving DecidableEq, Repr

/-- What becomes of a request. -/
inductive Answer where
  /-- The server answers. -/
  | response (response : Response)
  /-- The request fails. -/
  | failure (reason : String)
  /-- Nothing ever happens. -/
  | silence
deriving DecidableEq, Repr

/-- The web as the requests see it: what becomes of a request for each URL. -/
abbrev Web := String → Answer

/-- A web where no server can be reached. -/
def offline : Web := fun _ => .failure "connection refused"

/-- The body of a successful answer. -/
def Answer.body? : Answer → Option String
  | response { status, body } => if isSuccess status then some body else none
  | _ => none

end BridgeFinder.Http
