import BridgeFinder.Bridge
import BridgeFinder.Mdns.Responder
import BridgeFinder.Telemetry

/-!
# What a search does

The signals by which a search can be observed: the events that it reports, and
everything that it does to the network.
-/

namespace BridgeFinder

/-- Something that a search does. -/
inductive Activity where
  /-- An event is reported. -/
  | report (event : Telemetry.Event)
  /-- A method begins its part of the search. -/
  | started (kind : Kind)
  /-- A web page is requested. -/
  | request (url : String)
  /-- The check of a candidate has come to know whether it is a bridge. -/
  | resolved (address : Net.Ipv4) (bridge : Option Bridge)
  /-- A candidate has been checked, and may have turned out to be a bridge. -/
  | checked (address : Net.Ipv4) (bridge : Option Bridge)
  /-- A host has accepted a connection. -/
  | reached (address : Net.Ipv4)
  /-- A datagram is sent to the multicast group. -/
  | multicast (datagram : String)
  /-- A question is put to the responder. -/
  | inquiry (inquiry : Mdns.Inquiry)
  /-- The responder was polled and had seen nothing. -/
  | idle
  /-- Nothing is done for a while, given in milliseconds. -/
  | pause (milliseconds : Nat)
deriving DecidableEq, Repr

namespace Activity

/-- The event that is reported. -/
def event? : Activity → Option Telemetry.Event
  | report reported => some reported
  | _ => none

/-- The kind of the method that begins. -/
def kind? : Activity → Option Kind
  | started kind => some kind
  | _ => none

/-- The URL of the page that is requested. -/
def url? : Activity → Option String
  | request url => some url
  | _ => none

/-- The candidate whose check knows whether it is a bridge, and the bridge that it turned
out to be. -/
def resolved? : Activity → Option (Net.Ipv4 × Option Bridge)
  | resolved address bridge => some (address, bridge)
  | _ => none

/-- The candidate that has been checked, and the bridge that it turned out to be. -/
def check? : Activity → Option (Net.Ipv4 × Option Bridge)
  | checked address bridge => some (address, bridge)
  | _ => none

/-- The host that has accepted a connection. -/
def host? : Activity → Option Net.Ipv4
  | reached address => some address
  | _ => none

/-- The datagram that is sent. -/
def datagram? : Activity → Option String
  | multicast datagram => some datagram
  | _ => none

/-- The question that is put. -/
def inquiry? : Activity → Option Mdns.Inquiry
  | inquiry question => some question
  | _ => none

/-- The time for which nothing is done, in milliseconds. -/
def duration : Activity → Nat
  | pause milliseconds => milliseconds
  | _ => 0

/-- The activity reports a bridge. -/
def isDiscovery : Activity → Bool
  | report (.bridgeDiscovered _ _ _ _) => true
  | _ => false

end Activity

end BridgeFinder
