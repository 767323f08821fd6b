import BridgeFinder.Json.Value
import BridgeFinder.Settings.Schema

/-!
# Settings in JSON

Settings are written as an object with all names of the schema in order, and a
section as an object of its own.  Any name may be missing when settings are read;
unknown names are skipped, and a section may also be an array of its leading
values.
-/

namespace BridgeFinder.Settings

open Json (Value Reader Record RecordField Cause)

/-- Settings that are being read, and the names that have been given. -/
structure Draft where
  given : List String := []
  settings : Settings := {}

/-- Read an address from a string. -/
def readAddress : Reader Net.Ipv4 :=
  Json.stringAs "IPv4 address" fun text =>
    match Net.Ipv4.parse? text with
    | some address => .ok address
    | none => .error .notAnAddress

/-- Read the value of a setting and store it. -/
def Leaf.readJson (leaf : Leaf) (settings : Settings) : Reader Settings := fun document =>
  match leaf with
  | .natural width store => do
      let (value, rest) ← Json.natural width.largest width.name document
      pure (store value settings, rest)
  | .text store => do
      let (value, rest) ← Json.string document
      pure (store value settings, rest)
  | .address store => do
      let (value, rest) ← readAddress document
      pure (store value settings, rest)
  | .texts store => do
      let (value, rest) ← Json.list Json.string document
      pure (store value settings, rest)

/-- The field of a draft that has the given name and is read by `read`. -/
def draftField (name : String) (read : Settings → Reader Settings) : RecordField Draft where
  name := name
  isSet draft := draft.given.contains name
  read draft document := do
    let (settings, rest) ← read draft.settings document
    pure ({ given := name :: draft.given, settings := settings }, rest)

/-- How settings are read on top of others, from a record with the given fields. -/
def recordOver (settings : Settings) (title : String) (fields : List (RecordField Draft)) :
    Record Draft Settings where
  name := title
  fields := fields
  empty := { settings := settings }
  ofObject draft := .ok draft.settings
  ofArray _ draft := .ok draft.settings

/-- Read a section on top of other settings. -/
def Section.readJson (group : Section) (settings : Settings) : Reader Settings :=
  (recordOver settings group.title
    (group.leaves.map fun (name, leaf) => draftField name leaf.readJson)).read

/-- Read what a name at the top stands for. -/
def Entry.readJson : Entry → Settings → Reader Settings
  | .leaf setting => setting.readJson
  | .group settings => settings.readJson

/-- Read settings. -/
def readJson : Reader Settings :=
  (recordOver {} title (schema.map fun (name, entry) => draftField name entry.readJson)).read

/-- Read settings from a JSON document. -/
def ofJson (document : String) : Except Json.Error Settings :=
  Json.decode readJson document

/-- Settings as a JSON value. -/
def toJson (s : Settings) : Value :=
  .object
    [("worker_threads", .natural s.workers.toNat),
     ("http_timeout_ms", .natural s.httpTimeout.toNat),
     ("config_path", .string s.configPath),
     ("nupnp", .object [("url", .string s.cloud.url)]),
     ("upnp", .object
       [("multicast_addr", .string s.multicast.address.text),
        ("port", .natural s.multicast.port.toNat),
        ("timeout_ms", .natural s.multicast.timeout.toNat),
        ("send_count", .natural s.multicast.sendCount.toNat),
        ("send_interval_ms", .natural s.multicast.sendInterval.toNat),
        ("mx", .natural s.multicast.answerDelay.toNat)]),
     ("mdns", .object
       [("window_ms", .natural s.browse.window.toNat),
        ("poll_timeout_ms", .natural s.browse.pollTimeout.toNat),
        ("service_types", .array (s.browse.serviceTypes.map .string))]),
     ("ipscan", .object
       [("port", .natural s.scan.port.toNat),
        ("connect_timeout_ms", .natural s.scan.connectTimeout.toNat),
        ("max_concurrent", .natural s.scan.concurrency.toNat)])]

end BridgeFinder.Settings
