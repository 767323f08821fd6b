import BridgeFinder.Job
import BridgeFinder.Schedule

/-!
# A job with several callers

Any number of calls to run a job, to cancel it and to wait for it may be made while it is at
work.  A call to run and a call to cancel are made of two sections, and others may come
between them.  The outcome is reported to the callback of the call that started the job.
Only when the callback has returned does the job count as finished.
-/

namespace BridgeFinder.Job

/-- The output of a task that has ended, as long as it is open whether the job was
cancelled. -/
def returned? {σ α : Type} (job : Job σ α) : Option α :=
  match job.stage with
  | .returned output => some output
  | _ => none

namespace Shared

/-- What can be seen of a job and of the calls to it.  Calls are told apart by numbers. -/
inductive Mark (σ α : Type) where
  /-- The task lets a signal be observed. -/
  | signal (signal : σ)
  /-- It is settled what a call to run returns. -/
  | ran (call : Nat) (accepted : Bool)
  /-- It is settled what a call to cancel returns. -/
  | cancelled (call : Nat) (accepted : Bool)
  /-- A call to cancel that was accepted has fired the token. -/
  | fired (call : Nat)
  /-- The task has ended. -/
  | ended (output : α)
  /-- It is decided whether the job was cancelled. -/
  | decided (cancelled : Bool)
  /-- The callback of a call to run is called with the outcome. -/
  | reported (call : Nat) (outcome : Outcome α)
  /-- The callback has returned. -/
  | answered
  /-- The job counts as finished. -/
  | finished
  /-- A call to wait returns. -/
  | waited (call : Nat)
deriving DecidableEq, Repr

/-- How far the report of an outcome has come. -/
inductive Report where
  /-- The callback has not been called. -/
  | awaited
  /-- The callback has been called. -/
  | called
  /-- The callback has returned. -/
  | answered
deriving DecidableEq, Repr

/-- A turn of a job and its callers. -/
inductive Turn where
  /-- The first section of a call to run: claim the task. -/
  | run (call : Nat)
  /-- The second section of the call to run that has claimed the task: start it. -/
  | start
  /-- The first section of a call to cancel. -/
  | cancel (call : Nat)
  /-- The second section of a call to cancel that was accepted: fire the token. -/
  | fire (place : Nat)
  /-- The task moves; the number says how, where it has several ways. -/
  | go (way : Nat)
  /-- The task is let on. -/
  | release
  /-- It is decided whether the job was cancelled. -/
  | decide
  /-- The callback is called. -/
  | report
  /-- The callback returns. -/
  | answer
  /-- The job counts as finished from here on. -/
  | finish
  /-- A call to wait looks whether it may return. -/
  | wait (call : Nat)
deriving DecidableEq, Repr

/-- A turn that needs no new call from outside. -/
def Turn.isOwn : Turn → Bool
  | .run _ | .cancel _ | .wait _ => false
  | _ => true

end Shared

/-- A job with the calls to it that are under way. -/
structure Shared (σ α : Type) where
  job : Job σ α
  /-- The call to run that has claimed the task and not yet started it. -/
  starting : Option Nat := none
  /-- The call to run that has started the job, and whose callback is to be called. -/
  owner : Option Nat := none
  /-- The calls to cancel that were accepted and have not yet fired the token. -/
  firing : List Nat := []
  report : Shared.Report := .awaited

namespace Shared

variable {σ α : Type}

/-- A job that nobody has called yet. -/
def new (task : Task σ α) : Shared σ α where
  job := .new task

/-- Claim the task for a call to run, unless another call has claimed it. -/
def claim (call : Nat) (shared : Shared σ α) : List (Mark σ α) × Shared σ α :=
  match shared.job.claim? with
  | some job => ([], { shared with job, starting := some call })
  | none => ([.ran call false], shared)

/-- Start the task for the call that has claimed it. -/
def start (shared : Shared σ α) : List (Mark σ α) × Shared σ α :=
  match shared.starting with
  | none => ([], shared)
  | some call =>
      match shared.job.start? with
      | some job => ([.ran call true], { shared with job, starting := none, owner := some call })
      | none => ([.ran call false], { shared with starting := none })

/-- Request the cancellation of a job that is running. -/
def cancel (call : Nat) (shared : Shared σ α) : List (Mark σ α) × Shared σ α :=
  match shared.job.request? with
  | some job => ([.cancelled call true], { shared with job, firing := shared.firing ++ [call] })
  | none => ([.cancelled call false], shared)

/-- Fire the token for a call to cancel that was accepted. -/
def fire (place : Nat) (shared : Shared σ α) : List (Mark σ α) × Shared σ α :=
  match shared.firing[place]? with
  | some call =>
      ([.fired call],
        { shared with job := shared.job.fire, firing := shared.firing.eraseIdx place })
  | none => ([], shared)

/-- Move the task. -/
def go (way : Nat) (shared : Shared σ α) : List (Mark σ α) × Shared σ α :=
  match shared.job.move? way with
  | some (signals, job) =>
      (signals.map .signal ++ (job.returned?.map .ended).toList, { shared with job })
  | none => ([], shared)

/-- Decide whether the job was cancelled. -/
def settle (shared : Shared σ α) : List (Mark σ α) × Shared σ α :=
  match shared.job.decide? with
  | some job =>
      ((job.outcome?.map fun outcome => .decided outcome.cancelled).toList, { shared with job })
  | none => ([], shared)

/-- Call the callback with the outcome. -/
def tell (shared : Shared σ α) : List (Mark σ α) × Shared σ α :=
  match shared.report, shared.owner, shared.job.outcome? with
  | .awaited, some call, some outcome =>
      ([.reported call outcome], { shared with report := .called })
  | _, _, _ => ([], shared)

/-- Let the callback return. -/
def answer (shared : Shared σ α) : List (Mark σ α) × Shared σ α :=
  match shared.report with
  | .called => ([.answered], { shared with report := .answered })
  | .awaited | .answered => ([], shared)

/-- Let the job count as finished, once its callback has returned. -/
def finish (shared : Shared σ α) : List (Mark σ α) × Shared σ α :=
  match shared.report, shared.job.outcome? with
  | .answered, some _ => ([.finished], { shared with job := shared.job.close })
  | _, _ => ([], shared)

/-- Let a call to wait return, if it may. -/
def wait (call : Nat) (shared : Shared σ α) : List (Mark σ α) × Shared σ α :=
  if shared.job.isOver then ([.waited call], shared) else ([], shared)

/-- Take a turn. -/
def turn (turn : Turn) (shared : Shared σ α) : List (Mark σ α) × Shared σ α :=
  match turn with
  | .run call => shared.claim call
  | .start => shared.start
  | .cancel call => shared.cancel call
  | .fire place => shared.fire place
  | .go way => shared.go way
  | .release => ([], { shared with job := shared.job.release?.getD shared.job })
  | .decide => shared.settle
  | .report => shared.tell
  | .answer => shared.answer
  | .finish => shared.finish
  | .wait call => shared.wait call

/-- The job rests: nothing happens any more, unless there is a new call. -/
def Rests (shared : Shared σ α) : Prop :=
  ∀ next, next.isOwn = true → shared.turn next = ([], shared)

/-- Let a job and its callers work by a schedule. -/
def workBy (turns : List Turn) (shared : Shared σ α) : List (Mark σ α) × Shared σ α :=
  play turn turns shared

end Shared

end BridgeFinder.Job
