import BridgeFinder.Failure
import BridgeFinder.Net.Ipv4

/-!
# Responders

A responder answers questions about the services of the local network.  It is
asked in three stages: which services there are of a type, on which host a service
runs, and which addresses a host has.  Its answers come later, as sightings, when
it is polled; they need not be answers to any question.
-/

namespace BridgeFinder.Mdns

/-- A question to a responder. -/
inductive Inquiry where
  | browse (serviceType : String)
  | resolve (service : String)
  | query (host : String)
deriving DecidableEq, Repr

/-- The text of a question. -/
def Inquiry.text : Inquiry → String
  | browse serviceType => "browse " ++ serviceType
  | resolve service => "resolve " ++ service
  | query host => "query " ++ host

/-- Something that a responder has seen on the network. -/
inductive Sighting where
  /-- There is a service of the given type. -/
  | found (serviceType service : String)
  /-- A service runs on a host. -/
  | resolved (service host : String)
  /-- A host has an address. -/
  | located (host : String) (address : Net.Ipv4)
deriving DecidableEq, Repr

/-- A responder whose state is of type `π`: how it takes a question, which it may
refuse, what it gives when it is polled, and for how long a poll that finds nothing
lasts, of the time that it is given. -/
structure Responder (π : Type) where
  ask : Inquiry → π → Except Failure Unit × π
  poll : π → List Sighting × π
  lasts : π → Nat → Nat := fun _ time => time

end BridgeFinder.Mdns
