import BridgeFinder.Mdns.Responder
import BridgeFinder.Schedule

/-!
# The relay

A daemon watches the network and raises notices about the service types that are
browsed: it resolves services and addresses on its own.  The relay keeps what the
notices said and passes it on as answers to the questions that were asked, whether
the notice came before the question or after it.  Notices wait in a channel for
each browse until the relay is polled.

Whoever has a relay puts questions to it and polls it, and the daemon raises notices in the
meantime, in any order.  A call to poll looks for answers again and again, until there are some
or its time is over; each look is a turn of its own.
-/

namespace BridgeFinder.Mdns

/-- An address as the daemon knows it. -/
inductive HostAddress where
  | ipv4 (address : Net.Ipv4)
  | ipv6 (text : String)
deriving DecidableEq, Repr

/-- The IPv4 address, if it is one. -/
def HostAddress.ipv4? : HostAddress → Option Net.Ipv4
  | ipv4 address => some address
  | ipv6 _ => none

/-- What the daemon raises. -/
inductive Notice where
  /-- There is a service. -/
  | found (service : String)
  /-- A service runs on a host with the given addresses. -/
  | resolved (service host : String) (addresses : List HostAddress)
  /-- Something that does not matter here. -/
  | other
deriving DecidableEq, Repr

/-- A browse of one service type, with the notices that have not been received. -/
structure Channel where
  serviceType : String
  notices : List Notice := []
deriving DecidableEq, Repr

/-- The state of the relay. -/
structure Relay where
  channels : List Channel := []
  /-- The host of each service that a notice resolved. -/
  hosts : List (String × String) := []
  /-- The addresses of each host, in the order in which they were learned. -/
  addresses : List (String × List Net.Ipv4) := []
  /-- The services whose host was asked for and is not known. -/
  wantedServices : List String := []
  /-- The hosts whose addresses were asked for. -/
  wantedHosts : List String := []
  /-- The answers that have not been passed on. -/
  pending : List Sighting := []
deriving DecidableEq, Repr

namespace Relay

/-- The endings of the service types that can be browsed. -/
def typeEndings : List String :=
  ["._tcp.local.", "._udp.local."]

/-- The refusal of a service type. -/
def refusal (serviceType : String) : Failure :=
  .mdns ("failed to browse '" ++ serviceType ++ "': mDNS service " ++ serviceType ++
    " must end with '._tcp.local.' or '._udp.local.'")

/-- The addresses of a host that are known. -/
def known (host : String) (relay : Relay) : List Net.Ipv4 :=
  (relay.addresses.lookup host).getD []

/-- Add answers to those that have not been passed on. -/
def answer (sightings : List Sighting) (relay : Relay) : Relay :=
  { relay with pending := relay.pending ++ sightings }

/-- Open a channel for a service type. -/
def browse (serviceType : String) (relay : Relay) : Except Failure Unit × Relay :=
  if typeEndings.any fun ending => ending.toList.isSuffixOf serviceType.toList then
    (.ok (), { relay with channels := relay.channels ++ [⟨serviceType, []⟩] })
  else (.error (refusal serviceType), relay)

/-- Ask for the host of a service. -/
def resolve (service : String) (relay : Relay) : Relay :=
  match relay.hosts.lookup service with
  | some host => relay.answer [.resolved service host]
  | none =>
      { relay with wantedServices := relay.wantedServices.filter (· ≠ service) ++ [service] }

/-- Ask for the addresses of a host.  Asking again changes nothing. -/
def query (host : String) (relay : Relay) : Relay :=
  if relay.wantedHosts.contains host then relay
  else
    { relay with wantedHosts := relay.wantedHosts ++ [host] }.answer
      ((relay.known host).map (.located host))

/-- Put a notice into the channel with the given number. -/
def raise (channel : Nat) (notice : Notice) (relay : Relay) : Relay :=
  { relay with
    channels := relay.channels.modify channel fun channel =>
      { channel with notices := channel.notices ++ [notice] } }

/-- Note what a notice says, and answer what was asked about it. -/
def handle (serviceType : String) (relay : Relay) : Notice → Relay
  | .found service => relay.answer [.found serviceType service]
  | .resolved service host addresses =>
      let known := relay.known host
      let fresh := ((addresses.filterMap HostAddress.ipv4?).eraseDups).filter (· ∉ known)
      let noted :=
        { relay with
          hosts := (service, host) :: relay.hosts.filter (·.1 ≠ service)
          addresses := (host, known ++ fresh) :: relay.addresses.filter (·.1 ≠ host)
          wantedServices := relay.wantedServices.filter (· ≠ service) }
      let resolutions :=
        if relay.wantedServices.contains service then [.resolved service host] else []
      let locations :=
        if relay.wantedHosts.contains host then fresh.map (.located host) else []
      noted.answer (resolutions ++ locations)
  | .other => relay

/-- Receive every notice that waits, one channel after another. -/
def receive (relay : Relay) : Relay :=
  let received := relay.channels.flatMap fun channel =>
    channel.notices.map fun notice => (channel.serviceType, notice)
  let emptied :=
    { relay with channels := relay.channels.map fun channel => { channel with notices := [] } }
  received.foldl (fun relay (serviceType, notice) => relay.handle serviceType notice) emptied

/-- Receive what waits and pass the answers on. -/
def poll (relay : Relay) : List Sighting × Relay :=
  let relay := relay.receive
  (relay.pending, { relay with pending := [] })

/-- The relay as a responder. -/
def responder : Responder Relay where
  ask inquiry relay :=
    match inquiry with
    | .browse serviceType => relay.browse serviceType
    | .resolve service => (.ok (), relay.resolve service)
    | .query host => (.ok (), relay.query host)
  poll := poll

/-! ## At work -/

/-- What can be seen of a relay. -/
inductive Mark where
  /-- A question is put. -/
  | asked (inquiry : Inquiry)
  /-- The daemon raises a notice in a channel for a service type. -/
  | raised (serviceType : String) (notice : Notice)
  /-- Answers are passed on. -/
  | passed (sightings : List Sighting)
deriving DecidableEq, Repr

/-- A turn of a relay. -/
inductive Turn where
  /-- A question is put. -/
  | ask (inquiry : Inquiry)
  /-- The daemon raises a notice in the channel with the given number. -/
  | raise (channel : Nat) (notice : Notice)
  /-- The relay is polled. -/
  | poll
deriving DecidableEq, Repr

/-- Take a turn. -/
def turn (turn : Turn) (relay : Relay) : List Mark × Relay :=
  match turn with
  | .ask inquiry => ([.asked inquiry], (responder.ask inquiry relay).2)
  | .raise channel notice =>
      ((relay.channels[channel]?.map fun open' => .raised open'.serviceType notice).toList,
        relay.raise channel notice)
  | .poll =>
      let (sightings, relay) := responder.poll relay
      ([.passed sightings], relay)

/-- Let a relay work by a schedule. -/
def workBy (turns : List Turn) (relay : Relay) : List Mark × Relay :=
  play turn turns relay

end Relay

end BridgeFinder.Mdns
