import BridgeFinder.Mdns.Relay
import BridgeFinder.Network
import BridgeFinder.Settings

/-!
# A host without a network

The host may have interfaces, but nothing that is sent arrives anywhere: no server
can be reached, no connection is accepted, no socket can be bound, and the daemon
raises no notice.  Searches on such a host end without a result and take only the
time for which they wait.
-/

namespace BridgeFinder.Network

/-- The network of a host that lists the given interfaces and reaches nothing. -/
def offline (interfaces : Except Failure (List Net.Listed)) (settings : Settings) :
    Network Mdns.Relay where
  web := Http.offline
  interfaces := interfaces
  accepts _ := false
  binds := false
  datagrams := []
  sends := 0
  responder := Mdns.Relay.responder
  responderState := .ok {}
  polls := settings.browse.window.toNat / settings.browse.pollTimeout.toNat + 1

end BridgeFinder.Network
