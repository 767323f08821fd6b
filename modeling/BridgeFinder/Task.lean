/-!
# Tasks

A task is a piece of work written out as what it does next.  It ends with an
output; on the way it lets others observe signals, looks at its cancellation
token, and waits.  Where several things may happen next, in an order that is not
up to the task, it has several ways to go on.

The token itself is kept by whoever runs the task.  It is fired at most once and
never withdrawn, so running a task takes no more than a Boolean that says whether
it has been fired.
-/

namespace BridgeFinder

/-- A task that lets others observe signals of type `σ` and ends with an output of
type `α`. -/
inductive Task (σ α : Type) where
  /-- The task has ended. -/
  | done (output : α)
  /-- The task lets a signal be observed. -/
  | emit (signal : σ) (next : Task σ α)
  /-- The task looks at its token and goes on knowing whether it is cancelled. -/
  | check (next : Bool → Task σ α)
  /-- The task goes on in one of several ways; which one is up to the schedule. -/
  | pick (others : Nat) (next : Fin (others + 1) → Task σ α)
  /-- The task waits until it is let on or cancelled, whichever comes first. -/
  | gate (released cancelled : Task σ α)
  /-- The task waits until it is let on, whether or not it is cancelled. -/
  | hold (released : Task σ α)
  /-- The task waits for something that never comes; only a cancellation ends the
  wait. -/
  | stall (cancelled : Task σ α)

namespace Task

variable {σ τ α β : Type}

/-- Let several signals be observed, one after another. -/
def emitAll (signals : List σ) (next : Task σ α) : Task σ α :=
  signals.foldr emit next

/-- Go on with another task, which may depend on the output of the first. -/
def bind (task : Task σ α) (next : α → Task σ β) : Task σ β :=
  match task with
  | done output => next output
  | emit signal rest => emit signal (rest.bind next)
  | check rest => check fun cancelled => (rest cancelled).bind next
  | pick others rest => pick others fun way => (rest way).bind next
  | gate released cancelled => gate (released.bind next) (cancelled.bind next)
  | hold released => hold (released.bind next)
  | stall cancelled => stall (cancelled.bind next)

/-- Wait until the task is let on, and then go on as one that was released or
cancelled.  A task that lingers is not let on by a cancellation alone. -/
def wait (lingers : Bool) (released cancelled : Task σ α) : Task σ α :=
  if lingers then hold (check fun isCancelled => if isCancelled then cancelled else released)
  else gate released cancelled

/-- Change the output of a task. -/
def map (change : α → β) (task : Task σ α) : Task σ β :=
  task.bind fun output => done (change output)

/-- Leave, or else go on.  A task that has not been cancelled goes on; one that has may do
either. -/
def orLeave (leave next : Task σ α) : Task σ α :=
  check fun cancelled =>
    if cancelled then pick 1 fun way => if way = 0 then leave else next else next

/-- Go on in one of several ways.  Where there are none, the task idles. -/
def among {ι : Type} (ways : List ι) (idle : Task σ α) (next : ι → Task σ α) : Task σ α :=
  match ways with
  | [] => idle
  | first :: rest => pick rest.length fun way => next (first :: rest)[way]

/-- One move of a task, with the signals it lets be observed.  `way` says how the
task goes on where it has several ways; a task that is let on from outside makes
no move of its own. -/
def move? (cancelled : Bool) (way : Nat) : Task σ α → Option (List σ × Task σ α)
  | done _ => none
  | emit signal next => some ([signal], next)
  | check next => some ([], next cancelled)
  | pick others next => if h : way < others + 1 then some ([], next ⟨way, h⟩) else none
  | gate _ leave => if cancelled then some ([], leave) else none
  | hold _ => none
  | stall leave => if cancelled then some ([], leave) else none

/-- Let a waiting task on. -/
def release? : Task σ α → Option (Task σ α)
  | gate released _ => some released
  | hold released => some released
  | _ => none

/-- The output of a task that has ended. -/
def output? : Task σ α → Option α
  | done output => some output
  | _ => none

/-- Move a task on until it ends or has to be let on, going the first of several
ways.  The signals are those observed meanwhile. -/
def settle (cancelled : Bool) : Task σ α → List σ × Task σ α
  | done output => ([], done output)
  | emit signal next =>
      let (signals, rest) := next.settle cancelled
      (signal :: signals, rest)
  | check next => (next cancelled).settle cancelled
  | pick _ next => (next 0).settle cancelled
  | gate released leave =>
      if cancelled then leave.settle cancelled else ([], gate released leave)
  | hold released => ([], hold released)
  | stall leave => if cancelled then leave.settle cancelled else ([], stall leave)

end Task

end BridgeFinder
