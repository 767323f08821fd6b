import BridgeFinder.Job.Turn
import BridgeFinder.MethodSearch

/-!
# A method search at work

From when a search with one method is accepted until its callback has returned, its job
takes turns, and when the outcome is reported the callback is called with it.
-/

namespace BridgeFinder.MethodSearch

/-- What can be seen of a search with one method. -/
inductive Mark (ν : Type) where
  /-- The search does something. -/
  | activity (activity : Activity)
  /-- A request to stop the search is accepted. -/
  | cancelled
  /-- The callback is called. -/
  | delivered (delivery : Delivery ν)
deriving DecidableEq, Repr

namespace Mark

variable {ν : Type}

/-- What can be seen of the job of a search. -/
def ofJob : Job.Mark Activity → Mark ν
  | .signal done => activity done
  | .cancelled => cancelled

/-- What the search does. -/
def activity? : Mark ν → Option Activity
  | activity done => some done
  | _ => none

/-- What the callback is called with. -/
def delivery? : Mark ν → Option (Delivery ν)
  | delivered delivery => some delivery
  | _ => none

end Mark

/-- A turn of a search with one method. -/
inductive Turn where
  /-- The job takes a turn. -/
  | job (turn : Job.Turn)
  /-- The callback is called with the outcome that is reported. -/
  | deliver
deriving DecidableEq, Repr

/-- A turn that needs nobody from outside. -/
def Turn.isOwn : Turn → Bool
  | .job .request => false
  | _ => true

variable {ν : Type}

/-- Take a turn. -/
def turn (turn : Turn) (method : MethodSearch ν) : List (Mark ν) × MethodSearch ν :=
  match method.current with
  | none => ([], method)
  | some current =>
      match turn with
      | .job turn =>
          let (marks, job) := current.job.turn turn
          (marks.map .ofJob, { method with current := some { current with job } })
      | .deliver =>
          match current.job.outcome? with
          | none => ([], method)
          | some outcome =>
              ([.activity
                  (method.session.methodFinished method.kind (.ofCancelled outcome.cancelled)),
                .delivered ⟨current.callback, outcome.output, .ofCancelled outcome.cancelled⟩],
                { method with current := some { current with job := current.job.close } })

/-- The search rests: nothing happens any more, unless it is asked to stop. -/
def Rests (method : MethodSearch ν) : Prop :=
  ∀ next, next.isOwn = true → method.turn next = ([], method)

/-- Let a search work by a schedule. -/
def workBy (turns : List Turn) (method : MethodSearch ν) : List (Mark ν) × MethodSearch ν :=
  play turn turns method

end BridgeFinder.MethodSearch
