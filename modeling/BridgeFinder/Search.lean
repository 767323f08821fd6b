import BridgeFinder.Cloud
import BridgeFinder.Mdns.Collect
import BridgeFinder.Net.Interface
import BridgeFinder.Network
import BridgeFinder.Registry
import BridgeFinder.Scan
import BridgeFinder.Ssdp
import BridgeFinder.Text.Utf8
import BridgeFinder.Validation

/-!
# The four methods

Each kind of method has one way of searching.  A search that the network fails ends
without a result, so a failure never reaches the caller of a discovery.

The list that the cloud keeps is requested once, and every bridge on it is validated.
By multicast requests are sent to a group, and whatever arrives until the listening
time is over is read as responses; the devices that responded are validated.  By DNS-SD
the hosts that offer a service of a bridge are collected, and the first address of each
is validated, once however many hosts have it.  On the subnet around the first private
interface every host is tried, and those that accept a connection are validated.
-/

namespace BridgeFinder

namespace Search

/-! ## Through the cloud -/

/-- The candidates that the cloud's answer lists. -/
def listed (answer : Http.Answer) : List Bridge :=
  match answer.body? with
  | none => []
  | some body =>
      match Cloud.candidates body with
      | .ok candidates => candidates
      | .error _ => []

/-- Validate the candidates that the cloud's answer lists, if it ever answers. -/
def heed (validation : Validation) : Http.Answer → Task Activity (List Bridge)
  | .silence => .stall (.done [])
  | answer => validation.validate (listed answer)

/-- Search through the cloud at the configured address. -/
def cloud (configured : String) (validation : Validation) : Task Activity (List Bridge) :=
  let url := Cloud.requestUrl configured
  .orLeave (.done []) <| .emit (.request url) <| heed validation (validation.web url)

/-! ## By multicast -/

/-- The number of bytes of a datagram that are read. -/
def datagramLimit : Nat := 4096

/-- The text of a datagram.  What is beyond the limit is lost, and what is no text
is replaced. -/
def datagramText (datagram : List UInt8) : List Char :=
  Text.decodeLossy (datagram.take datagramLimit)

/-- Listen for responses.  Requests are still to be sent `sends` times, and
`datagrams` are still to arrive; the listening time may be over before that.  When
there is nothing left to do, the rest of it is waited for. -/
def listen (request : String) (time sends : Nat) (datagrams : List (List UInt8))
    (stream : Ssdp.Stream) : Task Activity (List Bridge) :=
  .orLeave (.done stream.finish) <|
    match sends, datagrams with
    | 0, [] => .emit (.pause time) (.gate (.done stream.finish) (.done stream.finish))
    | sends + 1, datagrams =>
        .pick 2 fun turn =>
          match turn, datagrams with
          | 0, datagrams =>
              .emit (.multicast request) (listen request time sends datagrams stream)
          | 1, datagram :: rest =>
              listen request time (sends + 1) rest (stream.feed (datagramText datagram))
          | _, _ => .done stream.finish
    | 0, datagram :: rest =>
        .pick 1 fun turn =>
          match turn with
          | 0 => listen request time 0 rest (stream.feed (datagramText datagram))
          | 1 => .done stream.finish
termination_by sends + datagrams.length

/-- Search by multicast from the first private interface. -/
def multicast {π : Type} (network : Network π) (settings : Settings.Multicast)
    (validation : Validation) : Task Activity (List Bridge) :=
  match network.interface with
  | .error _ => .done []
  | .ok _ =>
      if network.binds then
        (listen (Ssdp.request settings) settings.timeout.toNat
          (min settings.sendCount.toNat network.sends) network.datagrams {}).bind
            validation.validate
      else .done []

/-! ## By DNS-SD -/

/-- The addresses of hosts in ascending order, each once. -/
def distinctAddresses (hosts : Mdns.Hosts) : List Net.Ipv4 :=
  (hosts.map Prod.snd).eraseDups.mergeSort fun a b => decide (a ≤ b)

/-- The candidates at addresses. -/
def candidatesAt (addresses : List Net.Ipv4) : List Bridge :=
  addresses.map fun address => .candidate address.text

/-- Search by DNS-SD. -/
def browse {π : Type} (network : Network π) (settings : Settings.Browse)
    (validation : Validation) : Task Activity (List Bridge) :=
  match network.responderState with
  | .error _ => .done []
  | .ok state =>
      (Mdns.collect network.responder settings network.polls state).bind fun
        | .error _ => .done []
        | .ok hosts => validation.validate (candidatesAt (distinctAddresses hosts))

/-! ## On a subnet -/

/-- Search the subnet of this host.  Where there cannot be permits for it, nothing comes of the
search any more. -/
def scan {π : Type} (network : Network π) (settings : Settings.Scan)
    (validation : Validation) : Task Activity (List Bridge) :=
  match network.interface with
  | .error _ => .done []
  | .ok interface =>
      match Scan.run? settings.concurrency.toNat network.accepts (Net.subnetHosts interface) with
      | none => .stall (.done [])
      | some scan => scan.bind fun reached => validation.validate (candidatesAt reached)

/-! ## The methods -/

variable {π : Type} (network : Network π) (settings : Settings)

/-- The validation of a method: every confirmed bridge is reported. -/
def validation (session : Session) (kind : Kind) : Validation where
  web := network.web
  configPath := settings.configPath
  announce address := [session.bridgeFound kind address.text]

/-- The search of a method. -/
def ofKind (session : Session) (kind : Kind) : Task Activity (List Bridge) :=
  let validation := validation network settings session kind
  match kind with
  | .nupnp => cloud settings.cloud.url validation
  | .upnp => multicast network settings.multicast validation
  | .mdns => browse network settings.browse validation
  | .ipscan => scan network settings.scan validation

/-- The search of a method breaks down: there is a subnet to be scanned, but there cannot be
permits for it. -/
def breaksDown (kind : Kind) : Bool :=
  kind == .ipscan && network.interface.toOption.isSome &&
    (Scan.Permits.ofLimit? settings.scan.concurrency.toNat).isNone

/-- The maker of the method of a kind.  It never declines. -/
def maker (kind : Kind) : Maker :=
  fun session => some <|
    if breaksDown network settings kind then .failing session kind
    else .reporting session kind (ofKind network settings session kind)

end Search

/-- The registry of the four methods. -/
def Registry.standard {π : Type} (network : Network π) (settings : Settings) : Registry :=
  let maker := Search.maker network settings
  (((empty.register .upnp (maker .upnp)).register .nupnp (maker .nupnp)).register
    .mdns (maker .mdns)).register .ipscan (maker .ipscan)

end BridgeFinder
