import BridgeFinder.Proofs.Job.Follow

/-!
# What can be seen of the task of a job

While a job takes its turns, what can be seen of its task is a course of the task that leads to
where the job is, down to the looks at the token and to its firing.
-/

namespace BridgeFinder.Job

open BridgeFinder.Task (Course)

variable {σ α : Type} {task rest : Task σ α} {job : Job σ α} {seen : List (Task.Mark σ)}

/-- What can be seen of a move are its signals. -/
theorem signals_seen {token : Bool} {way : Nat} {row : List σ} {task next : Task σ α}
    (moved : task.move? token way = some (row, next)) : Task.signals (task.seen token) = row := by
  cases task with
  | done | hold => cases moved
  | emit | check => cases moved; rfl
  | pick others rest =>
      simp only [Task.move?] at moved
      split at moved <;> cases moved
      rfl
  | gate | stall =>
      cases token with
      | false => cases moved
      | true => cases moved; rfl

/-- The signals of a job are those of its task. -/
theorem signals_trail (next : Turn) (job : Job σ α) :
    Task.signals (job.trail next) = signals (job.turn next).1 := by
  rcases job with ⟨state, token, stage⟩
  cases next with
  | request => cases state <;> rfl
  | release | decide => rfl
  | fire =>
      simp only [trail, turn]
      split <;> split <;> rfl
  | go way =>
      cases stage with
      | ready | claimed | returned | reporting | finished => rfl
      | executing task =>
          cases moved : task.move? token way with
          | some step =>
              simp only [trail, turn, moved, move?_executing moved, Option.isSome_some, if_true,
                signals_seen moved, signals_signals]
          | none =>
              have silent : (turn (.go way) ⟨state, token, .executing task⟩).1 = [] := by
                cases task with
                | done output => rfl
                | emit | check | pick | gate | hold | stall =>
                    simp only [turn, move?, moved, Option.map_none]
              simp [trail, moved, silent, signals]

/-- What could be seen of a task is a course of it, which leaves the rest that its job is to
execute. -/
structure Recalls (task : Task σ α) (seen : List (Task.Mark σ)) (job : Job σ α)
    (rest : Task σ α) : Prop where
  course : Course ⟨false, task⟩ seen ⟨job.token, rest⟩
  leaves : job.stage.Leaves rest

namespace Recalls

theorem run (task : Task σ α) : Recalls task [] (Job.new task).run.1 task :=
  ⟨.rest _, rfl⟩

/-- Where nothing can be seen, the course has been taken as far as before. -/
theorem keep (recalls : Recalls task seen job rest) {next : Job σ α}
    (token : next.token = job.token) (leaves : next.stage.Leaves rest) :
    ∃ left, Recalls task (seen ++ []) next left ∧ ∀ output, rest = .done output → left = rest := by
  apply Exists.intro rest
  constructor
  · constructor
    · rw [List.append_nil, token]
      exact recalls.course
    · exact leaves
  · intro _ _
    rfl

/-- The task goes on its course. -/
theorem move (recalls : Recalls task seen job rest) (way : Nat) :
    ∃ left, Recalls task (seen ++ job.trail (.go way)) (job.turn (.go way)).2 left ∧
      ∀ output, rest = .done output → left = rest := by
  rcases job with ⟨state, token, stage⟩
  have leaves := recalls.leaves
  cases stage with
  | ready | claimed => exact leaves.elim
  | returned | reporting | finished => exact recalls.keep rfl leaves
  | executing here =>
      obtain rfl : rest = here := leaves
      cases moved : rest.move? token way with
      | some step =>
          have seen' : trail (.go way) ⟨state, token, .executing rest⟩ = rest.seen token := by
            simp [trail, moved]
          have on := Course.of_turn (.go way) (⟨token, rest⟩ : Task.Run σ α)
          simp only [Task.Run.turn, moved] at on
          simp only [seen', Job.turn, move?_executing moved]
          apply Exists.intro step.2
          constructor
          · exact ⟨recalls.course.trans on, rfl⟩
          · rintro output rfl
            cases moved
      | none =>
          have seen' : trail (.go way) ⟨state, token, .executing rest⟩ = [] := by
            simp [trail, moved]
          rw [seen']
          cases rest with
          | done output => exact recalls.keep rfl rfl
          | emit | check | pick | gate | hold | stall =>
              simp only [Job.turn, move?, moved, Option.map_none]
              exact recalls.keep rfl rfl

/-- So does one that is let on. -/
theorem release (recalls : Recalls task seen job rest) :
    ∃ left, Recalls task (seen ++ job.trail .release) (job.turn .release).2 left ∧
      ∀ output, rest = .done output → left = rest := by
  rcases job with ⟨state, token, stage⟩
  have leaves := recalls.leaves
  cases stage with
  | ready | claimed => exact leaves.elim
  | returned | reporting | finished => exact recalls.keep rfl leaves
  | executing here =>
      obtain rfl : rest = here := leaves
      cases released : rest.release? with
      | none =>
          simp only [Job.turn, release?, released, Option.map_none, Option.getD_none]
          exact recalls.keep rfl rfl
      | some next =>
          simp only [Job.turn, release?, released, Option.map_some, Option.getD_some]
          apply Exists.intro next
          constructor
          · exact ⟨recalls.course.trans (Task.course_of_release? released), rfl⟩
          · rintro output rfl
            cases released

/-- Whatever turn the job takes, its task is taken along the course that can be seen of it. -/
theorem turn (recalls : Recalls task seen job rest) (next : Turn) :
    ∃ left, Recalls task (seen ++ job.trail next) (job.turn next).2 left ∧
      ∀ output, rest = .done output → left = rest := by
  cases next with
  | go way => exact recalls.move way
  | release => exact recalls.release
  | request =>
      rcases job with ⟨state, token, stage⟩
      cases state <;> exact recalls.keep rfl recalls.leaves
  | fire =>
      rcases job with ⟨state, token, stage⟩
      cases state with
      | notStarted | running | completed => exact recalls.keep rfl recalls.leaves
      | cancelled =>
          cases token with
          | true => exact recalls.keep rfl recalls.leaves
          | false =>
              exact ⟨rest, ⟨recalls.course.trans (.fire (.rest _)), recalls.leaves⟩,
                fun _ _ => rfl⟩
  | decide =>
      rcases job with ⟨state, token, stage⟩
      cases stage with
      | ready | claimed | executing | reporting | finished =>
          exact recalls.keep rfl recalls.leaves
      | returned output =>
          simp only [Job.turn, decide?]
          split
          · exact recalls.keep rfl recalls.leaves
          · exact recalls.keep rfl recalls.leaves

/-- What a job reports is what its task has ended with. -/
theorem rest_of_outcome? (recalls : Recalls task seen job rest) {outcome : Outcome α}
    (reported : job.outcome? = some outcome) : rest = .done outcome.output := by
  have leaves := recalls.leaves
  rcases job with ⟨state, token, stage⟩
  cases stage with
  | reporting other =>
      cases reported
      exact leaves
  | ready | claimed | executing | returned | finished => cases reported

theorem close (recalls : Recalls task seen job rest) : Recalls task seen job.close rest := by
  have course := recalls.course
  have leaves := recalls.leaves
  rcases job with ⟨state, token, stage⟩
  cases stage with
  | reporting outcome => exact ⟨course, outcome.output, leaves⟩
  | ready | claimed | executing | returned | finished => exact ⟨course, leaves⟩

end Recalls

end BridgeFinder.Job
