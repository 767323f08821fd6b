import BridgeFinder.Proofs.Schedule
import BridgeFinder.Task.Run
import Mathlib.Data.Finset.Lattice.Fold
import Mathlib.Data.Fintype.Basic

/-!
# The depth of a task

A task makes only so many moves, counting those by which it is let on.  So it comes to an
end, or to where only a cancellation lets it on.
-/

namespace BridgeFinder.Task

variable {σ α : Type}

/-- The largest number of moves that a task makes. -/
def depth : Task σ α → Nat
  | done _ => 0
  | emit _ next => next.depth + 1
  | check next => max (next true).depth (next false).depth + 1
  | pick _ next => (Finset.univ.sup fun way => (next way).depth) + 1
  | gate released leave => max released.depth leave.depth + 1
  | hold released => released.depth + 1
  | stall leave => leave.depth + 1

/-- Every move brings a task nearer to its end. -/
theorem depth_lt_of_move? {token : Bool} {way : Nat} {row : List σ} {task next : Task σ α}
    (moved : task.move? token way = some (row, next)) : next.depth < task.depth := by
  cases task with
  | done | hold => cases moved
  | emit signal rest =>
      cases moved
      exact Nat.lt_succ_self _
  | check rest =>
      cases moved
      cases token with
      | true => exact Nat.lt_succ_of_le (Nat.le_max_left _ _)
      | false => exact Nat.lt_succ_of_le (Nat.le_max_right _ _)
  | pick others rest =>
      simp only [move?] at moved
      split at moved
      · cases moved
        exact Nat.lt_succ_of_le
          (Finset.le_sup (f := fun way => (rest way).depth) (Finset.mem_univ _))
      · cases moved
  | gate released leave =>
      cases token with
      | true =>
          cases moved
          exact Nat.lt_succ_of_le (Nat.le_max_right _ _)
      | false => cases moved
  | stall leave =>
      cases token with
      | true =>
          cases moved
          exact Nat.lt_succ_self _
      | false => cases moved

/-- So does letting it on. -/
theorem depth_lt_of_release? {task next : Task σ α} (released : task.release? = some next) :
    next.depth < task.depth := by
  cases task with
  | gate on leave =>
      cases released
      exact Nat.lt_succ_of_le (Nat.le_max_left _ _)
  | hold on =>
      cases released
      exact Nat.lt_succ_self _
  | done | emit | check | pick | stall => cases released

/-- A task that neither moves nor waits to be let on has ended or hangs. -/
theorem cases_of_rests {token : Bool} {task : Task σ α} (rests : ∀ way, task.move? token way = none)
    (waits : task.release? = none) :
    (∃ output, task = .done output) ∨ ∃ leave, task = .stall leave ∧ token = false := by
  cases task with
  | done output => exact .inl ⟨output, rfl⟩
  | emit | check => cases rests 0
  | pick others next =>
      have := rests 0
      simp [move?] at this
  | gate | hold => cases waits
  | stall leave =>
      cases token with
      | true => cases rests 0
      | false => exact .inr ⟨leave, rfl, rfl⟩

/-- A move of a task that is run changes nothing or brings it nearer to its end. -/
theorem Run.turn_depth (way : Nat) (run : Run σ α) :
    run.turn (.go way) = ([], run) ∨ (run.turn (.go way)).2.task.depth < run.task.depth := by
  rcases run with ⟨token, task⟩
  cases moved : task.move? token way with
  | none =>
      left
      simp [turn, moved]
  | some step =>
      right
      simpa [turn, moved] using depth_lt_of_move? moved

/-- A task that is run rests where no move changes anything. -/
theorem Run.rests_of_turn {run : Run σ α} (still : ∀ way, run.turn (.go way) = ([], run)) :
    run.Rests := by
  intro way
  cases moved : run.task.move? run.token way with
  | none => rfl
  | some step =>
      have less := depth_lt_of_move? moved
      have same := congrArg (fun step => step.2.task.depth) (still way)
      simp only [turn, moved] at same
      omega

/-- Whatever the schedule was, a task comes to rest after it by moves of its own. -/
theorem exists_rests (turns : List Turn) (token : Bool) (task : Task σ α) :
    ∃ more, (∀ next ∈ more, ∃ way, next = .go way) ∧
      (task.runBy (turns ++ more) token).2.Rests := by
  have down : ∀ next : Turn, (∃ way, next = .go way) → ∀ run : Run σ α,
      run.turn next = ([], run) ∨ (run.turn next).2.task.depth < run.task.depth := by
    rintro _ ⟨way, rfl⟩ run
    exact run.turn_depth way
  have below := (measure fun run : Run σ α => run.task.depth).wf
  rcases exists_play_rests below down (task.runBy turns token).2 with ⟨more, moves, rests⟩
  apply Exists.intro more
  constructor
  · exact moves
  · rw [runBy, play_append]
    exact Run.rests_of_turn fun way => rests (.go way) ⟨way, rfl⟩

end BridgeFinder.Task
