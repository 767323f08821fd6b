import BridgeFinder.Activity
import BridgeFinder.ReturnCode

/-!
# Sessions

Every accepted search is a session with a request id of its own, under which the
search and the methods that take part in it report.  Time does not pass in this
library, so whoever opens a session says what the durations in its reports read.
-/

namespace BridgeFinder

/-- A session: its request id, and the time that its reports give. -/
structure Session where
  request : Telemetry.RequestId
  elapsed : Telemetry.Duration := ⟨0, 0⟩
deriving DecidableEq, Repr, Inhabited

/-- The status of something that ended, by whether it was cancelled. -/
def Telemetry.Status.ofCancelled (cancelled : Bool) : Telemetry.Status :=
  if cancelled then .cancelled else .completed

/-- The code of a search that ended, by whether it was cancelled. -/
def ReturnCode.ofCancelled (cancelled : Bool) : ReturnCode :=
  if cancelled then .stopped else .success

namespace Session

/-- The report that a search has started. -/
def started (session : Session) : Activity :=
  .report (.discoveryStarted session.request)

/-- The report that a search has ended. -/
def finished (session : Session) (status : Telemetry.Status) : Activity :=
  .report (.discoveryFinished session.request session.elapsed status)

/-- The report that a method has started. -/
def methodStarted (session : Session) (kind : Kind) : Activity :=
  .report (.methodStarted session.request kind)

/-- The report that a method has ended. -/
def methodFinished (session : Session) (kind : Kind) (status : Telemetry.Status) : Activity :=
  .report (.methodFinished session.request kind session.elapsed status)

/-- The event that a method has found a bridge at an address. -/
def bridgeFound (session : Session) (kind : Kind) (ip : String) : Telemetry.Event :=
  .bridgeDiscovered session.request kind session.elapsed ip

/-- The report that a method has found a bridge at an address. -/
def bridgeDiscovered (session : Session) (kind : Kind) (ip : String) : Activity :=
  .report (session.bridgeFound kind ip)

end Session

end BridgeFinder
