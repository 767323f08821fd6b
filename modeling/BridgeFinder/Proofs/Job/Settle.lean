import BridgeFinder.Job.Turn
import BridgeFinder.Proofs.Schedule

/-!
# Calls that nothing comes between

A job that is moved on as far as it goes by itself, one that is let on and one that is
cancelled in a single call take turns like any other, so what holds by whatever schedule
holds of them.
-/

namespace BridgeFinder.Job

variable {σ α : Type}

/-- Moving the task of a job on is a schedule. -/
theorem reaches_executing (state : State) (token : Bool) (task : Task σ α) :
    Reaches turn (⟨state, token, .executing task⟩ : Job σ α)
      ((task.settle token).1.map .signal) ⟨state, token, .executing (task.settle token).2⟩ := by
  induction task with
  | done output => exact .rest _
  | emit signal next ih => exact .cons (Turn.go 0) ih
  | check next ih => exact .cons (Turn.go 0) (ih token)
  | pick others next ih => exact .cons (Turn.go 0) (ih 0)
  | gate released leave _ ih =>
      cases token with
      | true => exact .cons (Turn.go 0) ih
      | false => exact .rest _
  | hold released => exact .rest _
  | stall leave ih =>
      cases token with
      | true => exact .cons (Turn.go 0) ih
      | false => exact .rest _

/-- So is moving a job on until it waits or its outcome is reported. -/
theorem reaches_settle (job : Job σ α) :
    Reaches turn job (job.settle.1.map .signal) job.settle.2 := by
  rcases job with ⟨state, token, stage⟩
  cases stage with
  | ready | claimed | returned | reporting | finished => exact .rest _
  | executing task =>
      have moved := reaches_executing state token task
      simp only [settle]
      cases rest : (task.settle token).2 with
      | done output =>
          rw [rest] at moved
          have ended : Reaches turn (⟨state, token, .executing (.done output)⟩ : Job σ α) []
              (decide? ⟨state, token, .returned output⟩ |>.getD ⟨state, token, .returned output⟩) :=
            .cons (Turn.go 0) (.cons Turn.decide (.rest _))
          simpa using moved.trans ended
      | emit | check | pick | gate | hold | stall =>
          rw [rest] at moved
          exact moved

/-- Letting a job on is a turn. -/
theorem reaches_release {job next : Job σ α} (released : job.release? = some next) :
    Reaches turn job [] next :=
  .one .release (by simp [turn, released])

/-- A call to cancel makes both of its sections. -/
theorem reaches_cancel (job : Job σ α) :
    Reaches turn job (if job.cancel.2 then [.cancelled] else []) job.cancel.1 := by
  rcases job with ⟨state, token, stage⟩
  cases state with
  | running => exact .cons Turn.request (.cons Turn.fire (.rest _))
  | notStarted | cancelled | completed => exact .rest _

end BridgeFinder.Job
