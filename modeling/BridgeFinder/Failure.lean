import BridgeFinder.Json.Fault

/-!
# Failures

What can go wrong while bridges are looked for.  Failures of the network are
handled where they occur and do not end a search; the others are reported when
settings are loaded or a search engine is built.
-/

namespace BridgeFinder

/-- A failure. -/
inductive Failure where
  /-- A request failed, or was answered with a status that is no success. -/
  | http (url reason : String)
  /-- A document is not the JSON that was expected. -/
  | json (error : Json.Error)
  /-- The host has no interface with a private address. -/
  | noInterface
  /-- The DNS-SD responder failed. -/
  | mdns (reason : String)
  /-- The settings break a rule. -/
  | invalidSettings (reason : String)
  /-- The settings could not be loaded.  There is no reason to give when the
  source is not even well-formed. -/
  | unloadable (origin : String) (reason : Option String)
  /-- The engine could not be started. -/
  | runtime (reason : String)
  /-- The host refused an operation. -/
  | io (reason : String)
deriving DecidableEq, Repr

namespace Failure

/-- The text of a failure, unless its reason is unknown. -/
def message? : Failure → Option String
  | http url reason => some ("HTTP request to " ++ url ++ " failed: " ++ reason)
  | json error => some ("Invalid JSON response: " ++ error.message)
  | noInterface => some "No usable private IPv4 network interface found"
  | mdns reason => some ("mDNS error: " ++ reason)
  | invalidSettings reason => some ("Invalid configuration: " ++ reason)
  | unloadable origin reason =>
      reason.map fun reason => "Failed to load configuration from " ++ origin ++ ": " ++ reason
  | runtime reason => some ("Failed to start discovery runtime: " ++ reason)
  | io reason => some ("IO error: " ++ reason)

end Failure

end BridgeFinder
