import BridgeFinder.Failure
import BridgeFinder.Net.Ipv4
import BridgeFinder.Text.Character

/-!
# Settings

All times are in milliseconds, except the answer delay that a multicast search
asks for, which is in seconds.  Every setting has a default, so a source of
settings may leave out whatever it likes.  Settings that are well-typed may still
break a rule; `violation?` gives the first one that is broken.
-/

namespace BridgeFinder

namespace Settings

/-- Where the cloud keeps its list of bridges. -/
structure Cloud where
  url : String := "https://discovery.meethue.com"
deriving DecidableEq, Repr

/-- How to search by multicast. -/
structure Multicast where
  address : Net.Ipv4 := Net.Ipv4.ofOctets 239 255 255 250
  port : UInt16 := 1900
  /-- How long to listen. -/
  timeout : UInt64 := 5000
  /-- The number of requests. -/
  sendCount : UInt32 := 2
  /-- The time between two requests. -/
  sendInterval : UInt64 := 250
  /-- The longest delay of an answer, in seconds. -/
  answerDelay : UInt32 := 3
deriving DecidableEq, Repr

/-- How to browse for services. -/
structure Browse where
  /-- How long to collect answers. -/
  window : UInt64 := 8000
  /-- How long one poll may take. -/
  pollTimeout : UInt64 := 1000
  serviceTypes : List String := ["_hue._tcp.local.", "_hap._tcp.local."]
deriving DecidableEq, Repr

/-- How to try the addresses of a subnet. -/
structure Scan where
  port : UInt16 := 80
  connectTimeout : UInt64 := 1000
  /-- The number of addresses that are tried at a time. -/
  concurrency : UInt64 := 64
deriving DecidableEq, Repr

end Settings

/-- The settings of a search engine. -/
structure Settings where
  workers : UInt64 := 4
  httpTimeout : UInt64 := 5000
  /-- The path of a bridge's configuration document. -/
  configPath : String := "/api/config"
  cloud : Settings.Cloud := {}
  multicast : Settings.Multicast := {}
  browse : Settings.Browse := {}
  scan : Settings.Scan := {}
deriving DecidableEq, Repr

namespace Settings

/-- A rule that settings may break. -/
inductive Violation where
  | noWorkers
  | noHttpTimeout
  | relativeConfigPath
  | emptyCloudUrl
  | noMulticastTimeout
  | noRequests
  | notMulticast
  | noWindow
  | pollBeyondWindow
  | noServiceTypes
  | noConnectTimeout
  | noConcurrency
deriving DecidableEq, Repr

/-- The text of a violation. -/
def Violation.message : Violation → String
  | noWorkers => "worker_threads cannot be 0"
  | noHttpTimeout => "http_timeout_ms cannot be 0"
  | relativeConfigPath => "config_path must start with '/'"
  | emptyCloudUrl => "nupnp.url cannot be empty"
  | noMulticastTimeout => "upnp.timeout_ms cannot be 0"
  | noRequests => "upnp.send_count cannot be 0"
  | notMulticast => "upnp.multicast_addr must be a multicast address"
  | noWindow => "mdns window and poll timeout cannot be 0"
  | pollBeyondWindow => "mdns.poll_timeout_ms cannot exceed mdns.window_ms"
  | noServiceTypes => "at least one mdns service type must be configured"
  | noConnectTimeout => "ipscan.connect_timeout_ms cannot be 0"
  | noConcurrency => "ipscan.max_concurrent cannot be 0"

/-- Every rule with the test that settings break it. -/
def rules : List (Violation × (Settings → Bool)) :=
  [(.noWorkers, fun s => s.workers == 0),
   (.noHttpTimeout, fun s => s.httpTimeout == 0),
   (.relativeConfigPath, fun s => s.configPath.toList.head? != some '/'),
   (.emptyCloudUrl, fun s => Text.isAllBlank s.cloud.url.toList),
   (.noMulticastTimeout, fun s => s.multicast.timeout == 0),
   (.noRequests, fun s => s.multicast.sendCount == 0),
   (.notMulticast, fun s => !s.multicast.address.isMulticast),
   (.noWindow, fun s => s.browse.window == 0 || s.browse.pollTimeout == 0),
   (.pollBeyondWindow, fun s => s.browse.window < s.browse.pollTimeout),
   (.noServiceTypes, fun s => s.browse.serviceTypes.isEmpty),
   (.noConnectTimeout, fun s => s.scan.connectTimeout == 0),
   (.noConcurrency, fun s => s.scan.concurrency == 0)]

/-- The first rule that the settings break. -/
def violation? (settings : Settings) : Option Violation :=
  (rules.find? fun rule => rule.2 settings).map Prod.fst

/-- Accept settings that break no rule. -/
def validate (settings : Settings) : Except Failure Unit :=
  match settings.violation? with
  | none => .ok ()
  | some violation => .error (.invalidSettings violation.message)

end Settings

end BridgeFinder
