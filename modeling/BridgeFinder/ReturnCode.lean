import BridgeFinder.Json.Value

/-!
# How a search ends

Every search that was given a callback reports exactly one of these codes.
-/

namespace BridgeFinder

/-- The outcome of one search. -/
inductive ReturnCode where
  /-- The search ran to its end, perhaps without finding anything. -/
  | success
  /-- Another search was running. -/
  | busy
  /-- A required argument was missing. -/
  | nullParameter
  /-- The search was stopped, and its results are partial. -/
  | stopped
  /-- None of the requested methods can be used. -/
  | missingMethods
deriving DecidableEq, Repr, Inhabited

namespace ReturnCode

/-- The name of a code. -/
def name : ReturnCode → String
  | success => "Success"
  | busy => "Busy"
  | nullParameter => "NullParameter"
  | stopped => "Stopped"
  | missingMethods => "MissingDiscoveryMethods"

/-- All codes with their names. -/
def named : List (String × ReturnCode) :=
  [success, busy, nullParameter, stopped, missingMethods].map fun code => (code.name, code)

/-- A code as a JSON value. -/
def toJson (code : ReturnCode) : Json.Value :=
  .string code.name

/-- Read a code from a JSON document. -/
def ofJson (document : String) : Except Json.Error ReturnCode :=
  Json.decode (Json.enumeration named) document

end ReturnCode

end BridgeFinder
