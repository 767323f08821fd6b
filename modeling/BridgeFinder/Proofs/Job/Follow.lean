import BridgeFinder.Job.Turn
import BridgeFinder.Proofs.Task.Token

/-!
# What a job does

A job follows its task: its signals are those of a course of the task, and it reports
what the task ends with.  Its state and its outcome say that it was cancelled exactly
when a request to cancel was accepted.
-/

namespace BridgeFinder

/-! ## Moves of a task as courses -/

namespace Task

variable {σ α : Type} {token : Bool} {task next : Task σ α}

/-- A move of a task is a course with the same signals. -/
theorem course_of_move? {way : Nat} {row : List σ}
    (moved : task.move? token way = some (row, next)) :
    ∃ marks, Course ⟨token, task⟩ marks ⟨token, next⟩ ∧ signals marks = row := by
  have course := Course.of_turn (.go way) (⟨token, task⟩ : Run σ α)
  simp only [Run.turn, moved] at course
  apply Exists.intro (task.seen token)
  apply And.intro course
  cases task with
  | done | hold => cases moved
  | emit | check => cases moved; rfl
  | pick others rest =>
      simp only [move?] at moved
      split at moved <;> cases moved
      rfl
  | gate | stall =>
      cases token with
      | false => cases moved
      | true => cases moved; rfl

/-- Letting a task on is a course without signals. -/
theorem course_of_release? (released : task.release? = some next) :
    Course ⟨token, task⟩ [] ⟨token, next⟩ := by
  have course := Course.of_turn .release (⟨token, task⟩ : Run σ α)
  simpa [Run.turn, released] using course

end Task

namespace Job

open BridgeFinder.Task (Course Run)

variable {σ α : Type}

/-- What is left of the task of a job that has been started. -/
def Stage.Leaves : Stage σ α → Task σ α → Prop
  | .executing task, rest => rest = task
  | .returned output, rest => rest = .done output
  | .reporting outcome, rest => rest = .done outcome.output
  | .finished, rest => ∃ output, rest = .done output
  | .ready _, _ | .claimed _, _ => False

/-- It has been decided whether the job was cancelled. -/
def Stage.isDecided : Stage σ α → Bool
  | .reporting _ | .finished => true
  | _ => false

/-- A job that has been started with a task has followed it. -/
structure Follows (task : Task σ α) (marks : List (Mark σ)) (job : Job σ α) : Prop where
  /-- Its signals are those of a course of the task. -/
  course : ∃ seen rest, Course ⟨false, task⟩ seen ⟨job.token, rest⟩ ∧
    Task.signals seen = signals marks ∧ job.stage.Leaves rest
  /-- Its state says whether it was cancelled. -/
  state : job.state =
    if wasCancelled marks then .cancelled
    else if job.stage.isDecided then .completed else .running
  /-- The token is fired only if a request was accepted. -/
  token : job.token = true → wasCancelled marks = true
  /-- So does its outcome. -/
  outcome : ∀ outcome, job.outcome? = some outcome → outcome.cancelled = wasCancelled marks

@[simp]
theorem wasCancelled_append (first second : List (Mark σ)) :
    wasCancelled (first ++ second) = (wasCancelled first || wasCancelled second) :=
  List.any_append

@[simp]
theorem wasCancelled_signals (row : List σ) : wasCancelled (row.map Mark.signal) = false := by
  simp [wasCancelled, Mark.isCancelled]

theorem signals_append (first second : List (Mark σ)) :
    signals (first ++ second) = signals first ++ signals second :=
  List.filterMap_append

@[simp]
theorem signals_signals (row : List σ) : signals (row.map Mark.signal) = row := by
  simp [signals, Mark.signal?, List.filterMap_map, Function.comp_def]

/-! ## What a turn may come to -/

/-- What a turn of a job may come to. -/
inductive Step (job : Job σ α) : Turn → List (Mark σ) → Job σ α → Prop where
  | idle (next : Turn) : Step job next [] job
  | request (running : job.state = .running) :
      Step job .request [.cancelled] { job with state := .cancelled }
  | fire (cancelled : job.state = .cancelled) : Step job .fire [] { job with token := true }
  | move {way : Nat} {row : List σ} {task rest : Task σ α} (executing : job.stage = .executing task)
      (moved : task.move? job.token way = some (row, rest)) :
      Step job (.go way) (row.map .signal) { job with stage := .executing rest }
  | ended {way : Nat} {output : α} (executing : job.stage = .executing (.done output)) :
      Step job (.go way) [] { job with stage := .returned output }
  | release {task rest : Task σ α} (executing : job.stage = .executing task)
      (released : task.release? = some rest) :
      Step job .release [] { job with stage := .executing rest }
  | complete {output : α} (returned : job.stage = .returned output) (running : job.state = .running)
      (unfired : job.token = false) :
      Step job .decide [] { job with state := .completed, stage := .reporting ⟨output, false⟩ }
  | abort {output : α} (returned : job.stage = .returned output)
      (cancelled : ¬ (job.state = .running ∧ job.token = false)) :
      Step job .decide [] { job with state := .cancelled, stage := .reporting ⟨output, true⟩ }

/-- Where its task moves, so does a job. -/
theorem move?_executing {state : State} {token : Bool} {way : Nat} {row : List σ}
    {task rest : Task σ α} (moved : task.move? token way = some (row, rest)) :
    move? way ⟨state, token, .executing task⟩ = some (row, ⟨state, token, .executing rest⟩) := by
  cases task with
  | done => cases moved
  | emit | check | pick | gate | hold | stall => simp [move?, moved]

/-- Every turn comes to one of these. -/
theorem step_turn (next : Turn) (job : Job σ α) :
    Step job next (job.turn next).1 (job.turn next).2 := by
  obtain ⟨state, token, stage⟩ := job
  cases next with
  | request =>
      cases state with
      | running => exact .request rfl
      | notStarted | cancelled | completed => exact .idle _
  | fire =>
      cases state with
      | cancelled => exact .fire rfl
      | notStarted | running | completed => exact .idle _
  | go way =>
      cases stage with
      | executing task =>
          cases moved : task.move? token way with
          | some step =>
              simp only [turn, move?_executing moved]
              exact .move rfl moved
          | none =>
              cases task with
              | done output => exact .ended rfl
              | emit | check | pick | gate | hold | stall =>
                  simp only [turn, move?, moved, Option.map_none]
                  exact .idle _
      | ready | claimed | returned | reporting | finished => exact .idle _
  | release =>
      cases stage with
      | executing task =>
          cases released : task.release? with
          | some rest =>
              simp only [turn, release?, released, Option.map_some, Option.getD_some]
              exact .release rfl released
          | none =>
              simp only [turn, release?, released, Option.map_none, Option.getD_none]
              exact .idle _
      | ready | claimed | returned | reporting | finished => exact .idle _
  | decide =>
      cases stage with
      | returned output =>
          by_cases open' : state = .running ∧ !token
          · simp only [turn, decide?, if_pos open', Option.getD_some]
            exact .complete rfl open'.1 (by simpa using open'.2)
          · simp only [turn, decide?, if_neg open', Option.getD_some]
            exact .abort rfl (by simpa using open')
      | ready | claimed | executing | reporting | finished => exact .idle _

namespace Follows

variable {task : Task σ α} {marks : List (Mark σ)} {job : Job σ α}

/-- A job that has just been started has followed its task. -/
theorem run (task : Task σ α) : Follows task [] (Job.new task).run.1 where
  course := ⟨[], task, .rest _, rfl, rfl⟩
  state := rfl
  token := nofun
  outcome := nofun

theorem state_eq_cancelled_iff (follows : Follows task marks job) :
    job.state = .cancelled ↔ wasCancelled marks = true := by
  rw [follows.state]
  split
  · simp_all
  · split <;> simp_all

theorem state_ne_notStarted (follows : Follows task marks job) : job.state ≠ .notStarted := by
  rw [follows.state]
  split
  · exact nofun
  · split <;> exact nofun

/-- A request is accepted only before it is decided whether the job was cancelled. -/
theorem of_running (follows : Follows task marks job) (running : job.state = .running) :
    wasCancelled marks = false ∧ job.stage.isDecided = false := by
  have state := follows.state
  rw [running] at state
  split at state
  · cases state
  · split at state
    · cases state
    · simp_all

/-- A request that is accepted is what makes a job count as cancelled. -/
theorem request (follows : Follows task marks job) (running : job.state = .running) :
    Follows task (marks ++ [.cancelled]) { job with state := .cancelled } := by
  rcases follows.of_running running with ⟨-, undecided⟩
  rcases follows.course with ⟨seen, rest, course, same, leaves⟩
  constructor
  · exact ⟨seen, rest, course, by simp [same, signals, Mark.signal?], leaves⟩
  · simp [wasCancelled, Mark.isCancelled]
  · simp [wasCancelled, Mark.isCancelled]
  · intro outcome reported
    obtain ⟨_, _, stage⟩ := job
    cases stage with
    | reporting => cases undecided
    | ready | claimed | executing | returned | finished => cases reported

/-- The token is fired on the way of the task. -/
theorem fire (follows : Follows task marks job) (cancelled : job.state = .cancelled) :
    Follows task marks { job with token := true } := by
  have accepted := follows.state_eq_cancelled_iff.mp cancelled
  rcases follows.course with ⟨seen, rest, course, same, leaves⟩
  constructor
  · cases token : job.token with
    | true =>
        rw [token] at course
        exact ⟨seen, rest, course, same, leaves⟩
    | false =>
        rw [token] at course
        exact ⟨seen ++ [.fired], rest, course.trans (.fire (.rest _)), by simpa using same, leaves⟩
  · exact follows.state
  · intro _
    exact accepted
  · exact follows.outcome

/-- The task goes on its way. -/
theorem move (follows : Follows task marks job) {way : Nat} {row : List σ} {here next : Task σ α}
    (executing : job.stage = .executing here)
    (moved : here.move? job.token way = some (row, next)) :
    Follows task (marks ++ row.map .signal) { job with stage := .executing next } := by
  have state := follows.state
  rcases follows.course with ⟨seen, rest, course, same, leaves⟩
  rw [executing] at leaves state
  obtain rfl := leaves
  rcases Task.course_of_move? moved with ⟨later, on, signalled⟩
  constructor
  · exact ⟨seen ++ later, _, course.trans on, by simp [same, signals_append, signalled], rfl⟩
  · simpa [Stage.isDecided] using state
  · simpa using follows.token
  · nofun

/-- So does a task that is let on. -/
theorem release (follows : Follows task marks job) {here next : Task σ α}
    (executing : job.stage = .executing here) (released : here.release? = some next) :
    Follows task marks { job with stage := .executing next } := by
  have state := follows.state
  rcases follows.course with ⟨seen, rest, course, same, leaves⟩
  rw [executing] at leaves state
  obtain rfl := leaves
  have on := course.trans (Task.course_of_release? released)
  rw [List.append_nil] at on
  constructor
  · exact ⟨seen, _, on, same, rfl⟩
  · simpa [Stage.isDecided] using state
  · exact follows.token
  · nofun

/-- And so does one that has ended. -/
theorem ended (follows : Follows task marks job) {output : α}
    (executing : job.stage = .executing (.done output)) :
    Follows task marks { job with stage := .returned output } := by
  have state := follows.state
  rcases follows.course with ⟨seen, rest, course, same, leaves⟩
  rw [executing] at leaves state
  constructor
  · exact ⟨seen, rest, course, same, leaves⟩
  · simpa [Stage.isDecided] using state
  · exact follows.token
  · nofun

/-- A job completes only if no request was accepted. -/
theorem complete (follows : Follows task marks job) {output : α}
    (returned : job.stage = .returned output) (running : job.state = .running) :
    Follows task marks
      { job with state := .completed, stage := .reporting ⟨output, false⟩ } := by
  have uncancelled := (follows.of_running running).1
  rcases follows.course with ⟨seen, rest, course, same, leaves⟩
  rw [returned] at leaves
  constructor
  · exact ⟨seen, rest, course, same, leaves⟩
  · simp [uncancelled, Stage.isDecided]
  · exact follows.token
  · rintro _ ⟨⟩
    exact uncancelled.symm

/-- A job is cancelled only if a request was accepted. -/
theorem abort (follows : Follows task marks job) {output : α}
    (returned : job.stage = .returned output)
    (cancelled : ¬ (job.state = .running ∧ job.token = false)) :
    Follows task marks
      { job with state := .cancelled, stage := .reporting ⟨output, true⟩ } := by
  have state := follows.state
  rcases follows.course with ⟨seen, rest, course, same, leaves⟩
  rw [returned] at leaves state
  have accepted : wasCancelled marks = true := by
    cases was : wasCancelled marks with
    | true => rfl
    | false =>
        have fired : job.token = true := by
          simpa [was, state, Stage.isDecided] using cancelled
        rw [← was]
        exact follows.token fired
  constructor
  · exact ⟨seen, rest, course, same, leaves⟩
  · simp [accepted]
  · intro _
    exact accepted
  · rintro _ ⟨⟩
    exact accepted.symm

/-- Whatever its turn comes to, a job goes on to follow its task. -/
theorem step (follows : Follows task marks job) {next : Turn} {more : List (Mark σ)}
    {last : Job σ α} (step : Step job next more last) : Follows task (marks ++ more) last := by
  cases step with
  | request running => exact follows.request running
  | move executing moved => exact follows.move executing moved
  | idle => simpa using follows
  | fire cancelled => simpa using follows.fire cancelled
  | ended executing => simpa using follows.ended executing
  | release executing released => simpa using follows.release executing released
  | complete returned running => simpa using follows.complete returned running
  | abort returned cancelled => simpa using follows.abort returned cancelled

theorem close (follows : Follows task marks job) : Follows task marks job.close := by
  rcases job with ⟨state, token, stage⟩
  cases stage with
  | reporting outcome =>
      rcases follows.course with ⟨seen, rest, course, same, leaves⟩
      exact ⟨⟨seen, rest, course, same, outcome.output, leaves⟩, follows.state, follows.token, nofun⟩
  | ready | claimed | executing | returned | finished => exact follows

/-- Whatever its turn is, a job goes on to follow its task. -/
theorem turn (follows : Follows task marks job) (next : Turn) :
    Follows task (marks ++ (Job.turn next job).1) (Job.turn next job).2 :=
  follows.step (step_turn next job)

/-- Once it is decided whether a job was cancelled, nothing can be seen of it any more. -/
theorem silent (follows : Follows task marks job) (decided : job.stage.isDecided = true)
    {next : Turn} {more : List (Mark σ)} {last : Job σ α} (step : Step job next more last) :
    more = [] := by
  cases step with
  | idle | fire | ended | release | complete | abort => rfl
  | request running => simp [(follows.of_running running).2] at decided
  | move executing => simp [executing, Stage.isDecided] at decided

end Follows

section

variable {job last : Job σ α} {next : Turn} {more : List (Mark σ)}

/-- The report of a job is taken by no turn of its own. -/
theorem Step.isFinished (step : Step job next more last) : last.isFinished = job.isFinished := by
  cases step with
  | idle | request | fire => rfl
  | move executing | ended executing | release executing => simp [Job.isFinished, executing]
  | complete returned | abort returned => simp [Job.isFinished, returned]

/-- What has been decided stays decided. -/
theorem Step.isDecided (step : Step job next more last) (decided : job.stage.isDecided = true) :
    last.stage.isDecided = true := by
  cases step with
  | idle | request | fire => exact decided
  | move executing | ended executing | release executing =>
      simp [executing, Stage.isDecided] at decided
  | complete returned | abort returned => rfl

/-- No turn starts a job again. -/
theorem Step.running (step : Step job next more last) (running : last.state = .running) :
    job.state = .running := by
  cases step with
  | idle | fire | move | ended | release => exact running
  | request was | complete _ was => exact was
  | abort => cases running

end

/-- A job that reports its outcome has finished when the report has been taken. -/
theorem stage_close {job : Job σ α} (decided : job.stage.isDecided = true) :
    job.close.stage = .finished := by
  obtain ⟨state, token, stage⟩ := job
  cases stage with
  | reporting | finished => rfl
  | ready | claimed | executing | returned => cases decided

/-- A job that has been asked to stop is not running any more. -/
theorem state_request (job : Job σ α) : (Job.turn .request job).2.state ≠ .running := by
  obtain ⟨state, token, stage⟩ := job
  cases state <;> exact nofun

end Job

end BridgeFinder
