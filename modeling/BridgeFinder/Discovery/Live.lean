import BridgeFinder.Discovery
import BridgeFinder.Job.Turn

/-!
# A discovery at work

While callers ask for searches and have them stopped, the job of a search takes its
turns, outcomes that have been taken are reported, and callbacks are called, which may
ask for searches themselves.  Only a search is asked for in one go; all else may come in
any order, and a call to stop is two turns of the job.  A job whose outcome has been
taken may still be reporting it when the next search has its own job already.

A discovery at work forgets what cannot make a difference any more.  A record keeps, next to
it, what can be seen of the methods of every search that was accepted, down to their looks at
the token, and the outcomes that have been posted.  Keeping it changes nothing in the discovery.
-/

namespace BridgeFinder.Discovery

/-- A search that was asked for: its callback, and how it was answered. -/
structure Ask where
  callback : Callback
  verdict : Verdict

/-- What can be seen of a discovery. -/
inductive Mark where
  /-- The search does something. -/
  | activity (activity : Activity)
  /-- A search is asked for. -/
  | asked (ask : Ask)
  /-- A request to stop is accepted; the number is that of the search. -/
  | cancelled (number : Nat)
  /-- A callback is called. -/
  | called (call : Call)

namespace Mark

/-- What can be seen of the job of a search. -/
def ofJob (number : Nat) : Job.Mark Activity → Mark
  | .signal done => activity done
  | .cancelled => cancelled number

/-- The search that is asked for. -/
def ask? : Mark → Option Ask
  | asked ask => some ask
  | _ => none

/-- The call that is made. -/
def call? : Mark → Option Call
  | called call => some call
  | _ => none

/-- What happens, as far as it shows outside. -/
def happening? : Mark → Option Happening
  | activity done => some (.activity done)
  | called call => some (.called call.callback.name call.results call.code)
  | _ => none

end Mark

/-- The job of a search is over, unless the next search has its own already. -/
def close (number : Nat) (discovery : Discovery) : Discovery :=
  if number = discovery.accepted then { discovery with job := discovery.job.map Job.close }
  else discovery

/-- An outcome that has been taken and not been posted yet. -/
structure Finishing where
  /-- The number of the search. -/
  number : Nat
  reporter : Reporter
  /-- The end of the search has been reported. -/
  announced : Bool := false

/-- A discovery at work. -/
structure Live where
  discovery : Discovery
  /-- The number of the last search whose outcome has been taken. -/
  taken : Nat := 0
  finishing : List Finishing := []
  /-- The searches that the callback being called has still to ask for. -/
  calling : List (Options × Callback) := []
  /-- The discovery has been dropped. -/
  isDropped : Bool := false

/-- A turn of a discovery at work. -/
inductive Turn where
  /-- The caller asks for a search. -/
  | search (options : Options) (callback : Option Callback)
  /-- The job takes a turn. -/
  | job (turn : Job.Turn)
  /-- The outcome of the job is taken. -/
  | take
  /-- An outcome that was taken is reported. -/
  | announce (place : Nat)
  /-- The call with an outcome that was reported is posted, and the job is over. -/
  | post (place : Nat)
  /-- The callback of the oldest call is called. -/
  | call
  /-- The callback being called asks for its next search. -/
  | nested
  /-- The discovery is dropped. -/
  | drop
  /-- The dispatcher is shut down. -/
  | shut

/-- A turn that needs nobody from outside. -/
def Turn.isOwn : Turn → Bool
  | .search .. | .drop | .job .request => false
  | _ => true

namespace Live

/-- Ask for a search. -/
def ask (options : Options) (callback : Option Callback) (live : Live) : List Mark × Live :=
  let asked := callback.map fun callback => Mark.asked ⟨callback, live.discovery.verdict options⟩
  let (activities, discovery) := live.discovery.searchWith options callback
  (asked.toList ++ activities.map .activity, { live with discovery })

/-- Let the job take a turn. -/
def work (turn : Job.Turn) (live : Live) : List Mark × Live :=
  match live.discovery.job with
  | none => ([], live)
  | some job =>
      let (marks, job) := job.turn turn
      (marks.map (.ofJob live.discovery.accepted),
        { live with discovery := { live.discovery with job := some job } })

/-- Take the outcome of the job, unless it has been taken. -/
def take (live : Live) : Live :=
  match live.discovery.job.bind Job.outcome? with
  | none => live
  | some outcome =>
      if live.taken = live.discovery.accepted then live
      else
        let (reporter, discovery) := live.discovery.take outcome
        { live with
          discovery
          taken := discovery.accepted
          finishing := live.finishing ++ [{ number := discovery.accepted, reporter }] }

/-- Report an outcome. -/
def announce (place : Nat) (live : Live) : List Mark × Live :=
  match live.finishing[place]? with
  | none => ([], live)
  | some finishing =>
      if finishing.announced then ([], live)
      else
        (finishing.reporter.reports.map .activity,
          { live with finishing := live.finishing.set place { finishing with announced := true } })

/-- Post the call with an outcome that was reported. -/
def post (place : Nat) (live : Live) : Live :=
  match live.finishing[place]? with
  | none => live
  | some finishing =>
      if finishing.announced then
        { live with
          discovery := close finishing.number (live.discovery.hand finishing.reporter)
          finishing := live.finishing.eraseIdx place }
      else live

/-- Call the callback of the oldest call, unless one is being called.  When the discovery
has been dropped, a callback can ask for no search any more. -/
def call (live : Live) : List Mark × Live :=
  match live.calling, live.discovery.dispatcher.next? with
  | [], some (call, dispatcher) =>
      ([.called call],
        { live with
          discovery := { live.discovery with dispatcher }
          calling := if live.isDropped then [] else call.callback.searches })
  | _, _ => ([], live)

/-- Let the callback that is being called ask for its next search. -/
def nested (live : Live) : List Mark × Live :=
  match live.calling with
  | [] => ([], live)
  | (options, callback) :: rest => { live with calling := rest }.ask options (some callback)

/-- Drop the discovery: ask the search that is running to stop.  It is not dropped while a
callback has it in use. -/
def drop (live : Live) : List Mark × Live :=
  if live.isDropped || !live.calling.isEmpty then ([], live)
  else
    let (marks, live) := live.work .request
    (marks, { live with isDropped := true })

/-- Shut down the dispatcher of a discovery that has been dropped, when nobody is left who
could post anything. -/
def shut (live : Live) : Live :=
  if live.isDropped && live.finishing.isEmpty && live.discovery.isOver then
    { live with discovery :=
      { live.discovery with dispatcher := live.discovery.dispatcher.shut } }
  else live

/-- Take a turn. -/
def turn (turn : Turn) (live : Live) : List Mark × Live :=
  match turn with
  | .search options callback => if live.isDropped then ([], live) else live.ask options callback
  | .job turn => live.work turn
  | .take => ([], live.take)
  | .announce place => live.announce place
  | .post place => ([], live.post place)
  | .call => live.call
  | .nested => live.nested
  | .drop => live.drop
  | .shut => ([], live.shut)

/-- The discovery rests: nothing happens any more, unless it is asked for from outside. -/
def Rests (live : Live) : Prop :=
  ∀ next, next.isOwn = true → live.turn next = ([], live)

/-- Let a discovery work by a schedule. -/
def workBy (turns : List Turn) (live : Live) : List Mark × Live :=
  play turn turns live

/-! ## On record -/

/-- What can be seen of the methods of the search that was accepted last when a turn is
taken. -/
def trail (next : Turn) (live : Live) : List (Task.Mark Activity) :=
  match next with
  | .job next => (live.discovery.job.map (Job.trail next)).getD []
  | _ => []

/-- The outcome that is posted when a turn is taken, with the number of its search. -/
def posting (next : Turn) (live : Live) : List (Nat × Reporter) :=
  match next with
  | .post place =>
      match live.finishing[place]? with
      | some first => if first.announced then [(first.number, first.reporter)] else []
      | none => []
  | _ => []

end Live

/-- A discovery at work, on record. -/
structure Recorded where
  live : Live
  /-- What could be seen of the methods of each search, by its number. -/
  history : Nat → List (Task.Mark Activity) := fun _ => []
  /-- The outcomes that have been posted, with the numbers of their searches. -/
  posted : List (Nat × Reporter) := []

namespace Recorded

/-- What can be seen of the methods of a search when a turn is taken. -/
def trail (next : Turn) (recorded : Recorded) (number : Nat) : List (Task.Mark Activity) :=
  if number = recorded.live.discovery.accepted then recorded.live.trail next else []

/-- Take a turn. -/
def turn (next : Turn) (recorded : Recorded) : List Mark × Recorded :=
  let (marks, live) := recorded.live.turn next
  (marks,
    { live
      history := fun number => recorded.history number ++ recorded.trail next number
      posted := recorded.posted ++ recorded.live.posting next })

/-- Let a discovery on record work by a schedule. -/
def workBy (turns : List Turn) (recorded : Recorded) : List Mark × Recorded :=
  play turn turns recorded

/-- A discovery that has just been made. -/
def fresh (registry : Registry) (identify : Nat → Session) : Recorded where
  live := { discovery := { registry, identify } }

end Recorded

end BridgeFinder.Discovery
