import BridgeFinder.Proofs.Job.Follow
import BridgeFinder.Proofs.Task.Depth

/-!
# How a job comes to rest

By itself a job takes only so many turns.  Then its outcome is being reported or has been
taken, or its task hangs and the job has not been cancelled.
-/

namespace BridgeFinder.Job

variable {σ α : Type}

/-- What is left of a job. -/
def Stage.weight : Stage σ α → Nat
  | .executing task => task.depth + 3
  | .returned _ => 2
  | .reporting _ => 1
  | .ready _ | .claimed _ | .finished => 0

/-- What is left of a job, with the token that may be fired. -/
def weight (job : Job σ α) : Nat :=
  job.stage.weight + if job.token then 0 else 1

/-- A turn of its own changes nothing in a job or leaves less of it. -/
theorem Step.weight {job last : Job σ α} {next : Turn} {more : List (Mark σ)}
    (step : Step job next more last) (own : next ≠ .request) :
    more = [] ∧ last = job ∨ last.weight < job.weight := by
  cases step with
  | idle => exact .inl ⟨rfl, rfl⟩
  | request => exact absurd rfl own
  | fire cancelled =>
      obtain ⟨state, token, stage⟩ := job
      cases token with
      | true => exact .inl ⟨rfl, rfl⟩
      | false =>
          right
          simp [Job.weight]
  | move executing moved =>
      right
      have := Task.depth_lt_of_move? moved
      simpa [Job.weight, executing, Stage.weight] using this
  | ended executing =>
      right
      simp [Job.weight, executing, Stage.weight]
  | release executing released =>
      right
      have := Task.depth_lt_of_release? released
      simpa [Job.weight, executing, Stage.weight] using this
  | complete returned | abort returned =>
      right
      simp [Job.weight, returned, Stage.weight]

/-- A job that is executing its task and that no turn of its own changes waits to be
cancelled. -/
theorem stall_of_idle {state : State} {token : Bool} {task : Task σ α}
    (idle : ∀ next, next ≠ .request →
      (turn next ⟨state, token, .executing task⟩).2 = ⟨state, token, .executing task⟩) :
    (∃ leave, task = .stall leave) ∧ token = false ∧ state ≠ .cancelled := by
  have still : ∀ way, task.move? token way = none := by
    intro way
    cases moved : task.move? token way with
    | none => rfl
    | some step =>
        have same := idle (.go way) (by simp)
        simp only [turn, move?_executing moved, Job.mk.injEq, Stage.executing.injEq,
          true_and] at same
        have less := Task.depth_lt_of_move? moved
        rw [same] at less
        exact absurd less (Nat.lt_irrefl _)
  have waits : task.release? = none := by
    cases released : task.release? with
    | none => rfl
    | some next =>
        have same := idle .release (by simp)
        simp only [turn, release?, released, Option.map_some, Option.getD_some, Job.mk.injEq,
          Stage.executing.injEq, true_and] at same
        have less := Task.depth_lt_of_release? released
        rw [same] at less
        exact absurd less (Nat.lt_irrefl _)
  rcases Task.cases_of_rests still waits with ⟨output, rfl⟩ | ⟨leave, rfl, rfl⟩
  · have same := idle (.go 0) (by simp)
    simp [turn, move?] at same
  · constructor
    · exact ⟨leave, rfl⟩
    · constructor
      · rfl
      · intro cancelled
        have same := idle .fire (by simp)
        simp [turn, cancelled, fire] at same

/-- Less is left of a job that is over. -/
theorem weight_close (job : Job σ α) : job.close.weight ≤ job.weight := by
  rcases job with ⟨state, token, stage⟩
  cases stage with
  | reporting =>
      simp only [close, weight, Stage.weight]
      exact Nat.add_le_add_right (Nat.zero_le 1) _
  | ready | claimed | executing | returned | finished => exact Nat.le_refl _

/-- Taking the report of a job leaves less of it. -/
theorem weight_close_lt {job : Job σ α} {outcome : Outcome α}
    (reported : job.outcome? = some outcome) : job.close.weight < job.weight := by
  obtain ⟨state, token, stage⟩ := job
  cases stage with
  | reporting =>
      simp only [close, weight, Stage.weight]
      exact Nat.add_lt_add_right Nat.zero_lt_one _
  | ready | claimed | executing | returned | finished => cases reported

/-- A job that no turn of its own changes reports its outcome, has finished, or hangs. -/
theorem Follows.cases_of_idle {task : Task σ α} {marks : List (Mark σ)} {job : Job σ α}
    (follows : Follows task marks job)
    (idle : ∀ next, next ≠ .request → (Job.turn next job).2 = job) :
    (∃ outcome, job.outcome? = some outcome) ∨ job.isFinished = true ∨
      (∃ leave, job.stage = .executing (.stall leave)) ∧ job.state = .running ∧
        job.token = false := by
  rcases follows.course with ⟨observed, rest, course, -, leaves⟩
  have state := follows.state
  obtain ⟨state', token, stage⟩ := job
  cases stage with
  | ready | claimed => exact leaves.elim
  | finished => exact .inr (.inl rfl)
  | reporting outcome => exact .inl ⟨outcome, rfl⟩
  | returned output =>
      have same := idle .decide (by simp)
      simp only [Job.turn, decide?] at same
      split at same <;> cases same
  | executing task =>
      rcases stall_of_idle idle with ⟨⟨leave, rfl⟩, rfl, uncancelled⟩
      right
      right
      constructor
      · exact ⟨leave, rfl⟩
      · constructor
        · split at state
          · exact absurd state uncancelled
          · exact state
        · rfl

end BridgeFinder.Job
