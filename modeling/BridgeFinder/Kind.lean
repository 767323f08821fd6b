import BridgeFinder.Json.Value
import BridgeFinder.Text.Ascii

/-!
# Kinds of search methods

There are four ways to find a bridge: by SSDP multicast, through the cloud, by
DNS-SD, and by trying every address of the subnet.  They are run in a fixed
order, in which the quick and quiet ones do not simply come first: `priority`
says where a kind stands.
-/

namespace BridgeFinder

/-- A kind of search method. -/
inductive Kind where
  | upnp
  | nupnp
  | mdns
  | ipscan
deriving DecidableEq, Repr, Inhabited

namespace Kind

/-- All kinds in the order in which they are run. -/
def processingOrder : List Kind :=
  [mdns, ipscan, upnp, nupnp]

/-- The place of a kind in the processing order. -/
def priority : Kind → Nat
  | mdns => 0
  | ipscan => 1
  | upnp => 2
  | nupnp => 3

/-- The name of a kind. -/
def name : Kind → String
  | upnp => "upnp"
  | nupnp => "nupnp"
  | mdns => "mdns"
  | ipscan => "ipscan"

/-- All kinds in the order in which messages list them, with their names. -/
def named : List (String × Kind) :=
  [upnp, nupnp, mdns, ipscan].map fun kind => (kind.name, kind)

/-- A text is not the name of a kind. -/
structure Unknown where
  /-- The text, in lower case. -/
  text : String
deriving DecidableEq, Repr

/-- The text of the refusal. -/
def Unknown.message (unknown : Unknown) : String :=
  "unknown discovery method '" ++ unknown.text ++ "'"

/-- Read the name of a kind, in any case. -/
def parse (text : String) : Except Unknown Kind :=
  match named.lookup (Text.lower text) with
  | some kind => .ok kind
  | none => .error ⟨Text.lower text⟩

/-- A kind as a JSON value. -/
def toJson (kind : Kind) : Json.Value :=
  .string kind.name

/-- Read a kind from a JSON document. -/
def ofJson (document : String) : Except Json.Error Kind :=
  Json.decode (Json.enumeration named) document

end Kind

end BridgeFinder
