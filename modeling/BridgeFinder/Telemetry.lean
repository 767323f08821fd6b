import BridgeFinder.Kind

/-!
# Telemetry

A search reports its progress as events.  Each event is sent to its observer
under a name, with a list of fields; names and keys are fixed, because tools
outside this library depend on them.  Durations are sent in whole milliseconds.
-/

namespace BridgeFinder.Telemetry

/-- What tells one search from another. -/
structure RequestId where
  text : String
deriving DecidableEq, Repr, Inhabited

/-- The last hexadecimal digits of a number, with small letters. -/
def hexDigits : Nat → Nat → List Char
  | 0, _ => []
  | count + 1, n => hexDigits count (n / 16) ++ [(n % 16).digitChar]

/-- The request id of 128 bits: eight, four, four, four and twelve hexadecimal digits, with
hyphens between them. -/
def RequestId.ofBits (bits : BitVec 128) : RequestId where
  text := "-".intercalate ([(8, 96), (4, 80), (4, 64), (4, 48), (12, 0)].map fun (count, later) =>
    String.ofList (hexDigits count (bits >>> later).toNat))

/-- A span of time. -/
structure Duration where
  seconds : Nat
  nanoseconds : Nat
deriving DecidableEq, Repr, Inhabited

/-- The number of whole milliseconds in a span of time. -/
def Duration.milliseconds (duration : Duration) : Nat :=
  (duration.seconds * 1000000000 + duration.nanoseconds) / 1000000

/-- How a search or a method ended. -/
inductive Status where
  | completed
  | cancelled
deriving DecidableEq, Repr

/-- The word for a status. -/
def Status.word : Status → String
  | completed => "success"
  | cancelled => "cancelled"

/-- Something worth reporting. -/
inductive Event where
  | discoveryStarted (request : RequestId)
  | methodStarted (request : RequestId) (method : Kind)
  | bridgeDiscovered (request : RequestId) (method : Kind) (elapsed : Duration) (ip : String)
  | methodFinished (request : RequestId) (method : Kind) (elapsed : Duration) (status : Status)
  | discoveryFinished (request : RequestId) (elapsed : Duration) (status : Status)
deriving DecidableEq, Repr

namespace Event

/-- The search an event belongs to. -/
def request : Event → RequestId
  | discoveryStarted request => request
  | methodStarted request _ => request
  | bridgeDiscovered request _ _ _ => request
  | methodFinished request _ _ _ => request
  | discoveryFinished request _ _ => request

/-- The name under which an event is sent. -/
def name : Event → String
  | discoveryStarted _ => "discovery started"
  | methodStarted _ _ => "discovery method started"
  | bridgeDiscovered _ _ _ _ => "bridge discovered"
  | methodFinished _ _ _ _ => "discovery method finished"
  | discoveryFinished _ _ _ => "discovery finished"

/-- The field of the request. -/
def requestField (request : RequestId) : String × String :=
  ("request id", request.text)

/-- The field of the method. -/
def methodField (method : Kind) : String × String :=
  ("method", method.name)

/-- The field of the time that has passed. -/
def durationField (elapsed : Duration) : String × String :=
  ("duration", toString elapsed.milliseconds)

/-- The field of the status. -/
def statusField (status : Status) : String × String :=
  ("status", status.word)

/-- The fields that are sent with an event. -/
def fields : Event → List (String × String)
  | discoveryStarted request => [requestField request]
  | methodStarted request method => [requestField request, methodField method]
  | bridgeDiscovered request method elapsed ip =>
      [requestField request, methodField method, durationField elapsed, ("bridge ip", ip)]
  | methodFinished request method elapsed status =>
      [requestField request, methodField method, durationField elapsed, statusField status]
  | discoveryFinished request elapsed status =>
      [requestField request, durationField elapsed, statusField status]

/-- What an observer is sent: the name of the event, and what each key stands for among its
fields. -/
def message (event : Event) : String × (String → Option String) :=
  (event.name, fun key => event.fields.lookup key)

end Event

end BridgeFinder.Telemetry
