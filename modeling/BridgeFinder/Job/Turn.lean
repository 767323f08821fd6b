import BridgeFinder.Job
import BridgeFinder.Schedule
import BridgeFinder.Task.Run

/-!
# A job at work

From when a job is started until its outcome is reported, its task moves and is let
on, a call to cancel makes its two sections, and the outcome is decided.  All this
may come in any order, as far as it is possible at all.
-/

namespace BridgeFinder.Job

/-- What can be seen of a job at work. -/
inductive Mark (σ : Type) where
  /-- The task lets a signal be observed. -/
  | signal (signal : σ)
  /-- A request to cancel is accepted. -/
  | cancelled
deriving DecidableEq, Repr

/-- The signal that is observed. -/
def Mark.signal? {σ : Type} : Mark σ → Option σ
  | .signal observed => some observed
  | .cancelled => none

/-- A request to cancel is accepted. -/
def Mark.isCancelled {σ : Type} : Mark σ → Bool
  | .signal _ => false
  | .cancelled => true

/-- A request to cancel was accepted. -/
def wasCancelled {σ : Type} (marks : List (Mark σ)) : Bool :=
  marks.any Mark.isCancelled

/-- The signals among marks. -/
def signals {σ : Type} (marks : List (Mark σ)) : List σ :=
  marks.filterMap Mark.signal?

/-- A turn of a job at work. -/
inductive Turn where
  /-- The first section of a call to cancel. -/
  | request
  /-- The second section of a call to cancel that was accepted. -/
  | fire
  /-- The task moves; the number says how, where it has several ways. -/
  | go (way : Nat)
  /-- The task is let on. -/
  | release
  /-- It is decided whether the job was cancelled. -/
  | decide
deriving DecidableEq, Repr

variable {σ α : Type}

/-- Take a turn. -/
def turn (turn : Turn) (job : Job σ α) : List (Mark σ) × Job σ α :=
  match turn with
  | .request =>
      match job.request? with
      | some next => ([.cancelled], next)
      | none => ([], job)
  | .fire => if job.state = .cancelled then ([], job.fire) else ([], job)
  | .go way =>
      match job.move? way with
      | some (signals, next) => (signals.map .signal, next)
      | none => ([], job)
  | .release => ([], job.release?.getD job)
  | .decide => ([], job.decide?.getD job)

/-- What can be seen of the task of a job when the job takes a turn. -/
def trail (turn : Turn) (job : Job σ α) : List (Task.Mark σ) :=
  match turn with
  | .go way =>
      match job.stage with
      | .executing task => if (task.move? job.token way).isSome then task.seen job.token else []
      | _ => []
  | .fire => if job.state = .cancelled ∧ !job.token then [.fired] else []
  | .request | .release | .decide => []

end BridgeFinder.Job
