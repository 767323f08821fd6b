import BridgeFinder.Proofs.Task.Depth
import BridgeFinder.Proofs.Task.Token

/-!
# Coming to an end

A task that is let on wherever it waits makes only so many moves, whether or not its token is
fired.  Afterwards it has ended, unless it hangs; and a task of which no part hangs does end.
-/

namespace BridgeFinder.Task

variable {σ α β : Type}

/-- The task does nothing more, unless it is cancelled: it makes no move, and it does not wait to
be let on. -/
structure Run.IsStill (run : Run σ α) : Prop where
  rests : run.Rests
  unheld : run.task.release? = none

/-- A turn other than the firing of the token changes nothing or brings a task nearer to its end. -/
theorem Run.turn_depth_of_ne {next : Turn} (other : next ≠ .fire) (run : Run σ α) :
    run.turn next = ([], run) ∨ (run.turn next).2.task.depth < run.task.depth := by
  cases next with
  | go way => exact run.turn_depth way
  | release =>
      rcases run with ⟨token, task⟩
      cases released : task.release? with
      | none => exact .inl (by simp [turn, released])
      | some rest => exact .inr (by simpa [turn, released] using depth_lt_of_release? released)
  | fire => exact absurd rfl other

/-- Where neither a move nor letting it on changes anything, a task is still. -/
theorem Run.isStill_of_turn {run : Run σ α}
    (same : ∀ next : Turn, next ≠ .fire → run.turn next = ([], run)) : run.IsStill := by
  constructor
  · exact Run.rests_of_turn fun way => same (.go way) nofun
  · cases released : run.task.release? with
    | none => rfl
    | some rest =>
        have less := depth_lt_of_release? released
        have same := congrArg (fun step => step.2.task.depth) (same .release nofun)
        simp only [turn, released] at same
        omega

/-- Whatever the schedule was, a task becomes still after it without being cancelled. -/
theorem exists_isStill (turns : List Turn) (token : Bool) (task : Task σ α) :
    ∃ more, .fire ∉ more ∧ (task.runBy (turns ++ more) token).2.IsStill := by
  have down : ∀ next : Turn, next ≠ .fire → ∀ run : Run σ α,
      run.turn next = ([], run) ∨ (run.turn next).2.task.depth < run.task.depth :=
    fun _ other run => run.turn_depth_of_ne other
  have below := (measure fun run : Run σ α => run.task.depth).wf
  rcases exists_play_rests below down (task.runBy turns token).2 with ⟨more, others, still⟩
  refine ⟨more, fun fires => others _ fires rfl, ?_⟩
  rw [runBy, play_append]
  exact Run.isStill_of_turn still

/-- A task that goes on with another one is still where the first one is. -/
theorem Run.IsStill.of_bind {token : Bool} {task : Task σ α} {next : α → Task σ β}
    (still : Run.IsStill ⟨token, task.bind next⟩) (going : task.output? = none) :
    Run.IsStill ⟨token, task⟩ := by
  constructor
  · exact still.rests.of_bind going
  · have unheld := still.unheld
    cases task with
    | done output => cases going
    | emit | check | pick | stall => rfl
    | gate | hold => cases unheld

/-- A turn other than the firing of the token leaves it as it was. -/
theorem Run.token_turn {next : Turn} (other : next ≠ .fire) (run : Run σ α) :
    (run.turn next).2.token = run.token := by
  cases next with
  | go way =>
      simp only [turn]
      split <;> rfl
  | release =>
      simp only [turn]
      split <;> rfl
  | fire => exact absurd rfl other

/-- A schedule that does not fire the token leaves it as it was. -/
theorem Run.token_play {turns : List Turn} (unfired : .fire ∉ turns) (run : Run σ α) :
    (play Run.turn turns run).2.token = run.token := by
  induction turns generalizing run with
  | nil => rfl
  | cons next rest ih =>
      rcases List.ne_and_not_mem_of_not_mem_cons unfired with ⟨fires, later⟩
      rw [play_cons]
      exact (ih later _).trans (run.token_turn (Ne.symm fires))

/-- No part of the task hangs. -/
inductive NeverHangs : Task σ α → Prop where
  | done (output : α) : NeverHangs (.done output)
  | emit {signal : σ} {next : Task σ α} (later : NeverHangs next) : NeverHangs (.emit signal next)
  | check {next : Bool → Task σ α} (later : ∀ cancelled, NeverHangs (next cancelled)) :
      NeverHangs (.check next)
  | pick {others : Nat} {next : Fin (others + 1) → Task σ α}
      (later : ∀ way, NeverHangs (next way)) : NeverHangs (.pick others next)
  | gate {released cancelled : Task σ α} (on : NeverHangs released) (off : NeverHangs cancelled) :
      NeverHangs (.gate released cancelled)
  | hold {released : Task σ α} (on : NeverHangs released) : NeverHangs (.hold released)

namespace NeverHangs

theorem among {ι : Type} {ways : List ι} {idle : Task σ α} {next : ι → Task σ α}
    (stuck : ways = [] → NeverHangs idle) (on : ∀ way ∈ ways, NeverHangs (next way)) :
    NeverHangs (.among ways idle next) := by
  cases ways with
  | nil => exact stuck rfl
  | cons first rest => exact .pick fun way => on _ (List.getElem_mem way.isLt)

theorem map {change : α → β} {task : Task σ α} (never : NeverHangs task) :
    NeverHangs (task.map change) := by
  induction never with
  | done output => exact .done (change output)
  | emit _ ih => exact .emit ih
  | check _ ih => exact .check ih
  | pick _ ih => exact .pick ih
  | gate _ _ on off => exact .gate on off
  | hold _ ih => exact .hold ih

/-- A task of which no part hangs goes on with such a task. -/
theorem turn {run : Run σ α} (never : NeverHangs run.task) (next : Turn) :
    NeverHangs (run.turn next).2.task := by
  rcases run with ⟨token, task⟩
  cases next with
  | go way =>
      cases never with
      | done output => exact .done output
      | emit later => exact later
      | check later => exact later token
      | pick later =>
          simp only [Run.turn, move?]
          split
          · rename_i moved
            split at moved
            · cases moved
              exact later _
            · cases moved
          · exact .pick later
      | gate on off =>
          cases token with
          | true => exact off
          | false => exact .gate on off
      | hold on => exact .hold on
  | release =>
      cases never with
      | done output => exact .done output
      | emit later => exact .emit later
      | check later => exact .check later
      | pick later => exact .pick later
      | gate on _ | hold on => exact on
  | fire =>
      cases token with
      | true => exact never
      | false => exact never

/-- By whatever schedule, a task of which no part hangs comes to such a task. -/
theorem played (run : Run σ α) (never : NeverHangs run.task) (turns : List Turn) :
    NeverHangs (play Run.turn turns run).2.task := by
  induction turns generalizing run with
  | nil => exact never
  | cons next rest ih =>
      rw [play_cons]
      exact ih _ (never.turn next)

/-- A task of which no part hangs has ended where it is still. -/
theorem exists_output {token : Bool} {task : Task σ α} {marks : List (Mark σ)} {last : Run σ α}
    (never : NeverHangs task) (course : Course ⟨token, task⟩ marks last) (still : last.IsStill) :
    ∃ output, last.task = .done output := by
  rcases course.exists_turns with ⟨turns, took⟩
  have remains := played ⟨token, task⟩ never turns
  rw [took] at remains
  rcases cases_of_rests still.rests still.unheld with ended | ⟨leave, hangs, -⟩
  · exact ended
  · rw [hangs] at remains
    cases remains

/-- Whatever the schedule was, a task of which no part hangs ends after it without being
cancelled. -/
theorem exists_ended {task : Task σ α} (never : NeverHangs task) (turns : List Turn)
    (token : Bool) :
    ∃ more, .fire ∉ more ∧ ∃ output, (task.runBy (turns ++ more) token).2.task = .done output := by
  rcases exists_isStill turns token task with ⟨more, unfired, still⟩
  exact ⟨more, unfired, never.exists_output (course_runBy (turns ++ more) token task) still⟩

end NeverHangs

end BridgeFinder.Task
