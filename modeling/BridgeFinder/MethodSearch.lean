import BridgeFinder.Job
import BridgeFinder.Session

/-!
# Searching with one method

A method can be searched with again and again, but not while a search is under
way: a search that is asked for is rejected until the callback of the one before
has returned, even if that one has been cancelled.
-/

namespace BridgeFinder

/-- What a callback is called with.  Callbacks are told apart by names. -/
structure Delivery (ν : Type) where
  name : ν
  results : List Bridge
  code : ReturnCode
deriving DecidableEq, Repr

/-- A search under way: its job, and the name of its callback. -/
structure MethodSearch.Current (ν : Type) where
  job : Job Activity (List Bridge)
  callback : ν

/-- A method that is searched with, in one session. -/
structure MethodSearch (ν : Type) where
  kind : Kind
  session : Session
  current : Option (MethodSearch.Current ν) := none

namespace MethodSearch

variable {ν : Type}

/-- A search is under way and has not been cancelled. -/
def isSearching (method : MethodSearch ν) : Bool :=
  method.current.any fun current => current.job.isRunning

/-- No search keeps another one from being accepted. -/
def isFree (method : MethodSearch ν) : Bool :=
  method.current.all fun current => current.job.isFinished

/-- Search by the given task.  The Boolean says whether the search was accepted; a
rejected one changes nothing. -/
def search (task : Task Activity (List Bridge)) (callback : ν) (method : MethodSearch ν) :
    List Activity × MethodSearch ν × Bool :=
  if method.isFree then
    ([method.session.methodStarted method.kind],
      { method with current := some ⟨(Job.new task).run.1, callback⟩ }, true)
  else ([], method, false)

/-- Ask the search under way to stop.  The Boolean says whether it was still
running. -/
def cancel (method : MethodSearch ν) : MethodSearch ν × Bool :=
  match method.current with
  | none => (method, false)
  | some current =>
      let (job, accepted) := current.job.cancel
      ({ method with current := some { current with job } }, accepted)

/-- A call that waits for the search under way would return. -/
def isOver (method : MethodSearch ν) : Bool :=
  method.current.all fun current => current.job.isOver

/-- Let a waiting task on. -/
def release? (method : MethodSearch ν) : Option (MethodSearch ν) :=
  method.current.bind fun current =>
    current.job.release?.map fun job => { method with current := some { current with job } }

/-- Move the search on as far as it goes by itself: to where its task waits, or to
the end, where its callback is called. -/
def settle (method : MethodSearch ν) :
    List Activity × List (Delivery ν) × MethodSearch ν :=
  match method.current with
  | none => ([], [], method)
  | some current =>
      let (activities, job) := current.job.settle
      match job.outcome? with
      | none => (activities, [], { method with current := some { current with job } })
      | some outcome =>
          (activities ++
            [method.session.methodFinished method.kind (.ofCancelled outcome.cancelled)],
            [⟨current.callback, outcome.output, .ofCancelled outcome.cancelled⟩],
            { method with current := some { current with job := job.close } })

end MethodSearch

end BridgeFinder
