import BridgeFinder.Number.Binary64
import BridgeFinder.Settings

/-!
# The names and types of the settings

A source gives settings under names, some of them grouped into sections.  The
schema lists the names in order, with the type of each setting and how it is put
into the settings; every format of sources is decoded along this one list.
-/

namespace BridgeFinder.Settings

/-- The range of a natural number. -/
inductive Width where
  | bits16
  | bits32
  | bits64
  | size
deriving DecidableEq, Repr

/-- The largest number of a range. -/
def Width.largest : Width → Nat
  | bits16 => Number.powerOfTwo 16 - 1
  | bits32 => Number.powerOfTwo 32 - 1
  | bits64 => Number.powerOfTwo 64 - 1
  | size => Number.powerOfTwo 64 - 1

/-- The name of a range in messages. -/
def Width.name : Width → String
  | bits16 => "u16"
  | bits32 => "u32"
  | bits64 => "u64"
  | size => "usize"

/-- The type of a setting, with the function that stores a value.  A number is
stored only if it is in range. -/
inductive Leaf where
  | natural (width : Width) (store : Nat → Settings → Settings)
  | text (store : String → Settings → Settings)
  | address (store : Net.Ipv4 → Settings → Settings)
  | texts (store : List String → Settings → Settings)

/-- A named group of settings.  `title` is the name of its type in messages. -/
structure Section where
  title : String
  leaves : List (String × Leaf)

/-- What a name at the top stands for. -/
inductive Entry where
  | leaf (setting : Leaf)
  | group (settings : Section)

/-- The settings of the cloud. -/
def cloudSection : Section where
  title := "NupnpConfig"
  leaves :=
    [("url", .text fun value s => { s with cloud.url := value })]

/-- The settings of the multicast search. -/
def multicastSection : Section where
  title := "UpnpConfig"
  leaves :=
    [("multicast_addr", .address fun value s => { s with multicast.address := value }),
     ("port", .natural .bits16 fun value s => { s with multicast.port := .ofNat value }),
     ("timeout_ms", .natural .bits64 fun value s => { s with multicast.timeout := .ofNat value }),
     ("send_count", .natural .bits32 fun value s =>
       { s with multicast.sendCount := .ofNat value }),
     ("send_interval_ms", .natural .bits64 fun value s =>
       { s with multicast.sendInterval := .ofNat value }),
     ("mx", .natural .bits32 fun value s => { s with multicast.answerDelay := .ofNat value })]

/-- The settings of service browsing. -/
def browseSection : Section where
  title := "MdnsConfig"
  leaves :=
    [("window_ms", .natural .bits64 fun value s => { s with browse.window := .ofNat value }),
     ("poll_timeout_ms", .natural .bits64 fun value s =>
       { s with browse.pollTimeout := .ofNat value }),
     ("service_types", .texts fun value s => { s with browse.serviceTypes := value })]

/-- The settings of the scan. -/
def scanSection : Section where
  title := "IpscanConfig"
  leaves :=
    [("port", .natural .bits16 fun value s => { s with scan.port := .ofNat value }),
     ("connect_timeout_ms", .natural .bits64 fun value s =>
       { s with scan.connectTimeout := .ofNat value }),
     ("max_concurrent", .natural .size fun value s => { s with scan.concurrency := .ofNat value })]

/-- The name of the type of all settings in messages. -/
def title : String := "DiscoveryConfig"

/-- All settings in order. -/
def schema : List (String × Entry) :=
  [("worker_threads", .leaf (.natural .size fun value s => { s with workers := .ofNat value })),
   ("http_timeout_ms", .leaf (.natural .bits64 fun value s =>
     { s with httpTimeout := .ofNat value })),
   ("config_path", .leaf (.text fun value s => { s with configPath := value })),
   ("nupnp", .group cloudSection),
   ("upnp", .group multicastSection),
   ("mdns", .group browseSection),
   ("ipscan", .group scanSection)]

end BridgeFinder.Settings
