import BridgeFinder.Task

/-!
# Jobs

A job runs one task away from its caller and reports the outcome once.  Several
callers may start it, cancel it and wait for it at the same time, so each call is
made of sections that others may come between: `claim?` and `start` make up a
call to run, `request` and `fire` a call to cancel.

The outcome counts as cancelled exactly when a request to cancel was accepted,
and that can happen only while the job is running: after it was started and before
its completion was decided.
-/

namespace BridgeFinder

/-- What a job reports: the output of its task, which is partial if the job was
cancelled. -/
structure Outcome (α : Type) where
  output : α
  cancelled : Bool
deriving DecidableEq, Repr

namespace Job

/-- What callers see of a job. -/
inductive State where
  | notStarted
  | running
  | cancelled
  | completed
deriving DecidableEq, Repr

/-- The name of a state. -/
def State.name : State → String
  | notStarted => "NotStarted"
  | running => "Running"
  | cancelled => "Cancelled"
  | completed => "Completed"

/-- How far a job has come. -/
inductive Stage (σ α : Type) where
  /-- The task has not been touched. -/
  | ready (task : Task σ α)
  /-- A call to run has claimed the task and not yet started it. -/
  | claimed (task : Task σ α)
  /-- The task is being executed. -/
  | executing (task : Task σ α)
  /-- The task has ended, and it is still open whether the job was cancelled. -/
  | returned (output : α)
  /-- The outcome is being reported. -/
  | reporting (outcome : Outcome α)
  /-- The report has been taken. -/
  | finished

end Job

/-- A job: its state, whether the token of its task has been fired, and how far it
has come. -/
structure Job (σ α : Type) where
  state : Job.State
  token : Bool
  stage : Job.Stage σ α

namespace Job

variable {σ α : Type}

/-- A job that has not been started. -/
def new (task : Task σ α) : Job σ α where
  state := .notStarted
  token := false
  stage := .ready task

/-- The first section of a call to run: claim the task, unless another call has. -/
def claim? (job : Job σ α) : Option (Job σ α) :=
  match job.stage with
  | .ready task => some { job with stage := .claimed task }
  | _ => none

/-- The second section of a call to run: start the task that was claimed. -/
def start? (job : Job σ α) : Option (Job σ α) :=
  match job.state, job.stage with
  | .notStarted, .claimed task => some { job with state := .running, stage := .executing task }
  | _, _ => none

/-- The first section of a call to cancel: a running job counts as cancelled from
here on. -/
def request? (job : Job σ α) : Option (Job σ α) :=
  match job.state with
  | .running => some { job with state := .cancelled }
  | _ => none

/-- The second section of a call to cancel: fire the token. -/
def fire (job : Job σ α) : Job σ α :=
  { job with token := true }

/-- Move the task of a job, with the signals it lets be observed. -/
def move? (way : Nat) (job : Job σ α) : Option (List σ × Job σ α) :=
  match job.stage with
  | .executing task =>
      match task with
      | .done output => some ([], { job with stage := .returned output })
      | task => (task.move? job.token way).map fun (signals, next) =>
          (signals, { job with stage := .executing next })
  | _ => none

/-- Decide whether a job whose task has ended was cancelled. -/
def decide? (job : Job σ α) : Option (Job σ α) :=
  match job.stage with
  | .returned output =>
      if job.state = .running ∧ !job.token then
        some { job with state := .completed, stage := .reporting ⟨output, false⟩ }
      else some { job with state := .cancelled, stage := .reporting ⟨output, true⟩ }
  | _ => none

/-- The outcome that a job is reporting. -/
def outcome? (job : Job σ α) : Option (Outcome α) :=
  match job.stage with
  | .reporting outcome => some outcome
  | _ => none

/-- Go on after the report has been taken. -/
def close (job : Job σ α) : Job σ α :=
  match job.stage with
  | .reporting _ => { job with stage := .finished }
  | _ => job

/-- The task runs and has not been cancelled. -/
def isRunning (job : Job σ α) : Bool :=
  job.state = .running

/-- The report has been taken. -/
def isFinished (job : Job σ α) : Bool :=
  match job.stage with
  | .finished => true
  | _ => false

/-- A call that waits for the job would return: the job was never started, or its
report has been taken. -/
def isOver (job : Job σ α) : Bool :=
  job.state = .notStarted || job.isFinished

/-- A call to run that nothing comes between.  The Boolean says whether it started
the job. -/
def run (job : Job σ α) : Job σ α × Bool :=
  match job.claim? with
  | none => (job, false)
  | some claimed =>
      match claimed.start? with
      | none => (claimed, false)
      | some started => (started, true)

/-- A call to cancel that nothing comes between.  The Boolean says whether it was
accepted. -/
def cancel (job : Job σ α) : Job σ α × Bool :=
  match job.request? with
  | none => (job, false)
  | some requested => (requested.fire, true)

/-- Let a waiting task on. -/
def release? (job : Job σ α) : Option (Job σ α) :=
  match job.stage with
  | .executing task => task.release?.map fun next => { job with stage := .executing next }
  | _ => none

/-- Move a job on until its task has to be let on or its outcome is reported. -/
def settle (job : Job σ α) : List σ × Job σ α :=
  match job.stage with
  | .executing task =>
      let (signals, rest) := task.settle job.token
      match rest with
      | .done output =>
          let returned := { job with stage := .returned output }
          (signals, returned.decide?.getD returned)
      | rest => (signals, { job with stage := .executing rest })
  | _ => ([], job)

end Job

end BridgeFinder
