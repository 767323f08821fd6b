import BridgeFinder.Mdns.Responder

/-!
# Responders that answer from tables

The tables say which services there are of each type, on which host each service
runs, and which addresses each host has; a question may also be refused.  Answers
are due at once, and one poll gives all that are due.  When none is due, it gives
the next batch of what is seen without a question.
-/

namespace BridgeFinder.Mdns

/-- The tables.  A name that is not in a table has no answers. -/
structure Table where
  services : String → Except Failure (List String)
  hosts : String → Except Failure (List String)
  addresses : String → Except Failure (List Net.Ipv4)

namespace Table

/-- What there is to see: the answers that are due, and what is seen without a
question, batch by batch. -/
structure State where
  due : List Sighting := []
  batches : List (List Sighting) := []
deriving DecidableEq, Repr

/-- The answers to a question. -/
def answers (table : Table) : Inquiry → Except Failure (List Sighting)
  | .browse serviceType => (table.services serviceType).map (·.map (.found serviceType))
  | .resolve service => (table.hosts service).map (·.map (.resolved service))
  | .query host => (table.addresses host).map (·.map (.located host))

/-- Put a question. -/
def ask (table : Table) (inquiry : Inquiry) (state : State) : Except Failure Unit × State :=
  match table.answers inquiry with
  | .ok sightings => (.ok (), { state with due := state.due ++ sightings })
  | .error failure => (.error failure, state)

/-- Take what is due, or else the next batch. -/
def poll (state : State) : List Sighting × State :=
  match state with
  | ⟨[], batch :: batches⟩ => (batch, ⟨[], batches⟩)
  | ⟨due, batches⟩ => (due, ⟨[], batches⟩)

/-- The responder of the tables. -/
def responder (table : Table) : Responder State where
  ask := table.ask
  poll := poll

end Table

end BridgeFinder.Mdns
