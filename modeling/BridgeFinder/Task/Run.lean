import BridgeFinder.Schedule
import BridgeFinder.Task

/-!
# Running a task

A task that is run makes its moves, is let on where it waits, and has its token
fired, in any order.
-/

namespace BridgeFinder.Task

/-- What can be seen of a task that is run. -/
inductive Mark (σ : Type) where
  /-- The task lets a signal be observed. -/
  | signal (signal : σ)
  /-- The task looks at its token. -/
  | looked (cancelled : Bool)
  /-- The token is fired. -/
  | fired
deriving DecidableEq, Repr

namespace Mark

variable {σ : Type}

/-- The signal that is observed. -/
def signal? : Mark σ → Option σ
  | .signal observed => some observed
  | _ => none

/-- What a look at the token has found. -/
def look? : Mark σ → Option Bool
  | looked cancelled => some cancelled
  | _ => none

end Mark

/-- The signals among marks. -/
def signals {σ : Type} (marks : List (Mark σ)) : List σ :=
  marks.filterMap Mark.signal?

/-- What can be seen of the next move of a task. -/
def seen {σ α : Type} (cancelled : Bool) : Task σ α → List (Mark σ)
  | emit signal _ => [.signal signal]
  | check _ => [.looked cancelled]
  | _ => []

/-- A task that is run: whether its token has been fired, and what is left of the
task. -/
structure Run (σ α : Type) where
  token : Bool
  task : Task σ α

/-- A turn of a task that is run. -/
inductive Turn where
  /-- The task moves; the number says how, where it has several ways. -/
  | go (way : Nat)
  /-- The task is let on. -/
  | release
  /-- The token is fired. -/
  | fire
deriving DecidableEq, Repr

namespace Run

variable {σ α : Type}

/-- Take a turn. -/
def turn (turn : Turn) (run : Run σ α) : List (Mark σ) × Run σ α :=
  match turn with
  | .go way =>
      match run.task.move? run.token way with
      | some (_, next) => (run.task.seen run.token, { run with task := next })
      | none => ([], run)
  | .release =>
      match run.task.release? with
      | some next => ([], { run with task := next })
      | none => ([], run)
  | .fire => if run.token then ([], run) else ([.fired], { run with token := true })

/-- The task makes no move of its own, whichever way it is asked to go. -/
def Rests (run : Run σ α) : Prop :=
  ∀ way, run.task.move? run.token way = none

end Run

/-- Run a task by a schedule. -/
def runBy {σ α : Type} (turns : List Turn) (token : Bool) (task : Task σ α) :
    List (Mark σ) × Run σ α :=
  play Run.turn turns ⟨token, task⟩

end BridgeFinder.Task
