import BridgeFinder.Dispatcher
import BridgeFinder.Job
import BridgeFinder.Registry
import BridgeFinder.Runner
import BridgeFinder.Settings

/-!
# Discovery

One search runs at a time.  Its callback is parked from the moment the search is
asked for until its outcome is posted; while a callback is parked, every other
search is answered as busy.  A search whose options select no method that can be
made is answered at once, and all others become the job of running their methods.

A call to search is made of sections that others may come between: reserve the
slot, resolve the methods, publish the job, announce the search, and launch the
job.  `searchWith` is the call that nothing comes between.
-/

namespace BridgeFinder

/-- A callback: its name, and the searches that it starts when it is called. -/
inductive Callback where
  | mk (name : String) (searches : List (Options × Callback))
deriving Inhabited

/-- The name of a callback. -/
def Callback.name : Callback → String
  | mk name _ => name

/-- The searches that a callback starts. -/
def Callback.searches : Callback → List (Options × Callback)
  | mk _ searches => searches

mutual

/-- The number of callbacks in a callback, counting itself. -/
def Callback.size : Callback → Nat
  | .mk _ searches => Callback.sizes searches + 1

/-- The number of callbacks in several searches. -/
def Callback.sizes : List (Options × Callback) → Nat
  | [] => 0
  | (_, callback) :: rest => callback.size + Callback.sizes rest

end

/-- A call of a callback: what it is called with. -/
structure Call where
  callback : Callback
  results : List Bridge
  code : ReturnCode

/-- Something that happens around a discovery: it does something, or a callback is
called. -/
inductive Happening where
  | activity (activity : Activity)
  | called (name : String) (results : List Bridge) (code : ReturnCode)
deriving DecidableEq, Repr

/-- What is done. -/
def Happening.activity? : Happening → Option Activity
  | activity done => some done
  | _ => none

/-- The results and the code that a callback is called with. -/
def Happening.outcome? : Happening → Option (List Bridge × ReturnCode)
  | called _ results code => some (results, code)
  | _ => none

/-- How a search that is asked for is answered. -/
inductive Verdict where
  /-- Another callback is parked. -/
  | busy
  /-- The options select no method that can be made. -/
  | missing
  /-- The search is accepted under a number, and runs its methods. -/
  | accepted (number : Nat) (methods : List Method)

/-- The outcome of a job that has been taken, with the callback that was parked then
and the session of the search. -/
structure Reporter where
  callback : Option Callback
  session : Option Session
  outcome : Outcome (List Bridge × Runner)

namespace Reporter

/-- The report that the search has ended. -/
def reports (reporter : Reporter) : List Activity :=
  (reporter.session.map fun session =>
    session.finished (.ofCancelled reporter.outcome.cancelled)).toList

/-- The call of the callback. -/
def call? (reporter : Reporter) : Option Call :=
  reporter.callback.map fun callback =>
    ⟨callback, reporter.outcome.output.1, .ofCancelled reporter.outcome.cancelled⟩

end Reporter

/-- A discovery.  `identify` gives the session of each accepted search, by the
number of those accepted before. -/
structure Discovery where
  registry : Registry
  identify : Nat → Session
  accepted : Nat := 0
  /-- The callback of the search that has been asked for and not been answered. -/
  parked : Option Callback := none
  job : Option (Job Activity (List Bridge × Runner)) := none
  /-- The session of the search accepted last. -/
  session : Option Session := none
  dispatcher : Dispatcher Call := {}

namespace Discovery

/-- A discovery with valid settings and the given methods. -/
def build (settings : Settings) (registry : Registry) (identify : Nat → Session) :
    Except Failure Discovery :=
  match settings.validate with
  | .ok () => .ok { registry, identify }
  | .error failure => .error failure

/-- A search is running and has not been stopped. -/
def isSearching (discovery : Discovery) : Bool :=
  discovery.job.any Job.isRunning

/-- The request id of the search accepted last. -/
def request? (discovery : Discovery) : Option Telemetry.RequestId :=
  discovery.session.map Session.request

/-- Post a call. -/
def post (call : Call) (discovery : Discovery) : Discovery :=
  { discovery with dispatcher := (discovery.dispatcher.post call).1 }

/-- The first section of a search: park the callback, unless another one is
parked.  Then the search is answered as busy, and `none` says that it is over. -/
def reserve (callback : Callback) (discovery : Discovery) : Discovery × Option Unit :=
  match discovery.parked with
  | some _ => (discovery.post ⟨callback, [], .busy⟩, none)
  | none => ({ discovery with parked := some callback }, some ())

/-- The session that the next accepted search will have. -/
def nextSession (discovery : Discovery) : Session :=
  discovery.identify discovery.accepted

/-- The second section: make the methods. -/
def resolve (options : Options) (discovery : Discovery) : List Method :=
  discovery.registry.resolve options discovery.nextSession

/-- How a search with the options is answered if it is asked for now. -/
def verdict (options : Options) (discovery : Discovery) : Verdict :=
  if discovery.parked.isSome then .busy
  else
    match discovery.resolve options with
    | [] => .missing
    | methods => .accepted (discovery.accepted + 1) methods

/-- Give the slot free and answer that there are no methods. -/
def withdraw (discovery : Discovery) : Discovery :=
  match discovery.parked with
  | some callback => { discovery with parked := none }.post ⟨callback, [], .missingMethods⟩
  | none => discovery

/-- The third section: make the job and the session known. -/
def publish (methods : List Method) (discovery : Discovery) : Discovery :=
  { discovery with
    job := some (.new (Runner.ofMethods methods).execute)
    session := some discovery.nextSession
    accepted := discovery.accepted + 1 }

/-- The fourth section: report that the search has started. -/
def announce (discovery : Discovery) : List Activity :=
  (discovery.session.map Session.started).toList

/-- The last section: run the job. -/
def launch (discovery : Discovery) : Discovery :=
  { discovery with job := discovery.job.map fun job => job.run.1 }

/-- Search with the methods that the options select.  Without a callback nothing
happens. -/
def searchWith (options : Options) (callback : Option Callback) (discovery : Discovery) :
    List Activity × Discovery :=
  match callback with
  | none => ([], discovery)
  | some callback =>
      match discovery.reserve callback with
      | (discovery, none) => ([], discovery)
      | (discovery, some ()) =>
          match discovery.resolve options with
          | [] => ([], discovery.withdraw)
          | methods =>
              let published := discovery.publish methods
              (published.announce, published.launch)

/-- Search with the options of a search that asks for nothing special. -/
def search (callback : Callback) (discovery : Discovery) : List Activity × Discovery :=
  discovery.searchWith .default (some callback)

/-- Take the outcome of the job: the slot is free from here on. -/
def take (outcome : Outcome (List Bridge × Runner)) (discovery : Discovery) :
    Reporter × Discovery :=
  (⟨discovery.parked, discovery.session, outcome⟩, { discovery with parked := none })

/-- Post the call that a reporter has to make. -/
def hand (reporter : Reporter) (discovery : Discovery) : Discovery :=
  match reporter.call? with
  | some call => discovery.post call
  | none => discovery

/-- Take the outcome of the job: report the end of the search, and post the call of
its callback. -/
def finish (outcome : Outcome (List Bridge × Runner)) (discovery : Discovery) :
    List Activity × Discovery :=
  let (reporter, discovery) := discovery.take outcome
  (reporter.reports, discovery.hand reporter)

/-- Move the job on: to where its task waits, or to the end, where its outcome is
taken. -/
def progress (discovery : Discovery) : List Activity × Discovery :=
  match discovery.job with
  | none => ([], discovery)
  | some job =>
      let (activities, job) := job.settle
      match job.outcome? with
      | none => (activities, { discovery with job := some job })
      | some outcome =>
          let (reports, discovery) := { discovery with job := some job.close }.finish outcome
          (activities ++ reports, discovery)

/-- Start several searches, one after another. -/
def searchAll (searches : List (Options × Callback)) (discovery : Discovery) :
    List Activity × Discovery :=
  match searches with
  | [] => ([], discovery)
  | (options, callback) :: rest =>
      let (activities, discovery) := discovery.searchWith options (some callback)
      let (more, discovery) := discovery.searchAll rest
      (activities ++ more, discovery)

/-- Call the callback of the oldest call that is posted. -/
def deliver? (discovery : Discovery) : Option (List Happening × Discovery) :=
  discovery.dispatcher.next?.map fun (call, dispatcher) =>
    let (activities, discovery) := { discovery with dispatcher }.searchAll call.callback.searches
    (.called call.callback.name call.results call.code :: activities.map .activity, discovery)

/-- One step that needs nothing from outside: call what is posted, or else move the
job on. -/
def step (discovery : Discovery) : List Happening × Discovery :=
  match discovery.deliver? with
  | some delivered => delivered
  | none =>
      let (activities, discovery) := discovery.progress
      (activities.map .activity, discovery)

/-- Make several steps. -/
def steps (count : Nat) (discovery : Discovery) : List Happening × Discovery :=
  match count with
  | 0 => ([], discovery)
  | count + 1 =>
      let (happenings, discovery) := discovery.step
      let (more, discovery) := discovery.steps count
      (happenings ++ more, discovery)

/-- The number of steps after which nothing moves any more: every callback that
waits or is parked, with all those in it, may take a delivery and the run of a
job. -/
def patience (discovery : Discovery) : Nat :=
  let waiting := discovery.dispatcher.waiting.foldl (fun total call =>
    total + call.callback.size) 0
  2 * (waiting + (discovery.parked.map Callback.size).getD 0) + 1

/-- Let everything move until it has ended or waits to be let on. -/
def settle (discovery : Discovery) : List Happening × Discovery :=
  discovery.steps discovery.patience

/-- Let a waiting method on. -/
def release? (discovery : Discovery) : Option Discovery :=
  discovery.job.bind fun job =>
    job.release?.map fun job => { discovery with job := some job }

/-- Ask the search that is running to stop. -/
def cancel (discovery : Discovery) : Discovery :=
  { discovery with job := discovery.job.map fun job => job.cancel.1 }

/-- A call that waits for the search would return. -/
def isOver (discovery : Discovery) : Bool :=
  discovery.job.all Job.isOver

/-- Stop the search that is running and wait for it, as far as it ends by itself. -/
def stop (discovery : Discovery) : List Activity × Discovery :=
  if discovery.isOver then ([], discovery) else discovery.cancel.progress

/-- Discard a discovery.  Its search is stopped, and what is posted is still
called, but a callback can start no search any more. -/
def discard (discovery : Discovery) : List Happening :=
  let (activities, discovery) := discovery.stop
  activities.map .activity ++ discovery.dispatcher.waiting.map fun call =>
    .called call.callback.name call.results call.code

end Discovery

end BridgeFinder
