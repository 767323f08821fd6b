import BridgeFinder.Failure
import BridgeFinder.Http
import BridgeFinder.Mdns.Responder
import BridgeFinder.Net.Interface

/-!
# The network as a search meets it

Everything outside this library that a search depends on: how web servers answer,
which interfaces the host has, which hosts accept connections, what arrives on the
multicast socket, and the responder.  Time is not part of it; the network says how
much happens within the times that the settings allow.
-/

namespace BridgeFinder

/-- A network whose responder has a state of type `π`. -/
structure Network (π : Type) where
  web : Http.Web
  /-- The interfaces that the host lists, unless it refuses to. -/
  interfaces : Except Failure (List Net.Listed)
  /-- The hosts that accept a connection. -/
  accepts : Net.Ipv4 → Bool
  /-- A multicast socket can be bound. -/
  binds : Bool
  /-- What arrives on the multicast socket. -/
  datagrams : List (List UInt8)
  /-- The number of requests for which the listening time leaves room. -/
  sends : Nat
  responder : Mdns.Responder π
  /-- The first state of the responder, unless it cannot be started. -/
  responderState : Except Failure π
  /-- The number of polls for which the collection window leaves time. -/
  polls : Nat

namespace Network

/-- The interface to search from. -/
def interface {π : Type} (network : Network π) : Except Failure Net.Interface :=
  match network.interfaces with
  | .error failure => .error failure
  | .ok listed =>
      match Net.firstPrivate? listed with
      | some interface => .ok interface
      | none => .error .noInterface

end Network

end BridgeFinder
