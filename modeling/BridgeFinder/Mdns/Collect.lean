import BridgeFinder.Activity
import BridgeFinder.Settings
import BridgeFinder.Task

/-!
# Collecting host addresses

The services of the configured types are followed to their hosts: every service
that is found is resolved, and every host that a service is resolved to is queried
for its addresses.  The first address of a host counts.  Collecting goes on until
its window closes or it is cancelled, and fails only if no type can be browsed.
-/

namespace BridgeFinder.Mdns

/-- Hosts with their addresses, in the order in which they were first seen. -/
abbrev Hosts := List (String × Net.Ipv4)

/-- Note an address of a host, unless one is known. -/
def Hosts.note (hosts : Hosts) (host : String) (address : Net.Ipv4) : Hosts :=
  if (hosts.lookup host).isSome then hosts else hosts ++ [(host, address)]

/-- The question that a sighting leads to. -/
def Sighting.next? : Sighting → Option Inquiry
  | found _ service => some (.resolve service)
  | resolved _ host => some (.query host)
  | located _ _ => none

/-- The hosts known after a sighting. -/
def Sighting.noted (hosts : Hosts) : Sighting → Hosts
  | located host address => hosts.note host address
  | _ => hosts

/-- What a browse has come to: the number of types that could be browsed, and the
last refusal. -/
structure Browsed where
  accepted : Nat := 0
  refusal : Option Failure := none
deriving DecidableEq, Repr

namespace Collect

variable {π α : Type} (responder : Responder π)

/-- Browse every type in turn. -/
def browse (types : List String) (browsed : Browsed) (state : π)
    (next : Browsed → π → Task Activity α) : Task Activity α :=
  match types with
  | [] => next browsed state
  | type :: rest =>
      let (reply, state) := responder.ask (.browse type) state
      let browsed : Browsed :=
        match reply with
        | .ok () => { browsed with accepted := browsed.accepted + 1 }
        | .error failure => { browsed with refusal := some failure }
      .emit (.inquiry (.browse type)) (browse rest browsed state next)

/-- Follow the sightings of one poll.  A question that the responder refuses is
not put again. -/
def follow (sightings : List Sighting) (hosts : Hosts) (state : π)
    (next : Hosts → π → Task Activity α) : Task Activity α :=
  match sightings with
  | [] => next hosts state
  | sighting :: rest =>
      let hosts := sighting.noted hosts
      match sighting.next? with
      | some inquiry =>
          let (_, state) := responder.ask inquiry state
          .emit (.inquiry inquiry) (follow rest hosts state next)
      | none => follow rest hosts state next

/-- Poll until the window closes.  `window` is the time that is left of it, and
`polls` the number of polls for which the responder leaves time.  A poll that finds
nothing waits, and is given as much time as one poll may take. -/
def poll (pollTimeout polls window : Nat) (hosts : Hosts) (state : π) : Task Activity Hosts :=
  .check fun cancelled =>
    if cancelled ∨ window = 0 then .done hosts
    else
      match polls with
      | 0 => .done hosts
      | polls + 1 =>
          match responder.poll state with
          | ([], next) =>
              let wait := responder.lasts state (min pollTimeout window)
              .emitAll [.idle, .pause wait] <|
                .hold (poll pollTimeout polls (window - wait) hosts next)
          | (sightings, next) =>
              follow responder sightings hosts next (poll pollTimeout polls window)

end Collect

/-- Collect the addresses of the hosts that offer a service of the configured
types, from a responder that leaves time for `polls` polls. -/
def collect {π : Type} (responder : Responder π) (settings : Settings.Browse) (polls : Nat)
    (state : π) : Task Activity (Except Failure Hosts) :=
  Collect.browse responder settings.serviceTypes {} state fun browsed state =>
    if browsed.accepted = 0 then
      .done (.error (browsed.refusal.getD (.mdns "no service types to browse")))
    else
      (Collect.poll responder settings.pollTimeout.toNat polls settings.window.toNat []
        state).map .ok

end BridgeFinder.Mdns
