import BridgeFinder.Proofs.Task.Course

/-!
# What a task always does

Some tasks let only certain signals be observed and end only with certain outputs,
whatever the schedule.  There is one rule for every way in which tasks are put
together.
-/

namespace BridgeFinder.Task

variable {σ α β : Type} {allowed : σ → Prop} {fine : α → Prop}

/-- Whatever the schedule, all signals of a task are allowed, and if it ends, its output
is fine. -/
def Always (allowed : σ → Prop) (fine : α → Prop) (task : Task σ α) : Prop :=
  ∀ token marks last, Course ⟨token, task⟩ marks last →
    (∀ signal ∈ signals marks, allowed signal) ∧ ∀ output, last.task = .done output → fine output

namespace Always

theorem done {output : α} (good : fine output) : Always allowed fine (.done output) := by
  intro token marks last course
  rcases course.done_cases with ⟨after, firing, rfl⟩
  constructor
  · simp [firing.signals_eq]
  · rintro _ ⟨⟩
    exact good

theorem emit {signal : σ} {next : Task σ α} (good : allowed signal)
    (always : Always allowed fine next) : Always allowed fine (.emit signal next) := by
  intro token marks last course
  rcases course.emit_cases with ⟨after, firing, rfl⟩ | ⟨before, after, more, firing, rfl, rest⟩
  · exact ⟨by simp [firing.signals_eq], nofun⟩
  · rcases always after more last rest with ⟨signals, output⟩
    constructor
    · simpa [firing.signals_eq] using ⟨good, signals⟩
    · exact output

theorem emitAll {row : List σ} {next : Task σ α} (good : ∀ signal ∈ row, allowed signal)
    (always : Always allowed fine next) : Always allowed fine (.emitAll row next) := by
  induction row with
  | nil => exact always
  | cons signal row ih =>
      rcases List.forall_mem_cons.mp good with ⟨first, rest⟩
      exact .emit first (ih rest)

theorem check {next : Bool → Task σ α} (always : ∀ cancelled, Always allowed fine (next cancelled)) :
    Always allowed fine (.check next) := by
  intro token marks last course
  rcases course.check_cases with ⟨after, firing, rfl⟩ | ⟨before, after, more, firing, rfl, rest⟩
  · exact ⟨by simp [firing.signals_eq], nofun⟩
  · simpa [firing.signals_eq] using always after after more last rest

theorem pick {others : Nat} {next : Fin (others + 1) → Task σ α}
    (always : ∀ way, Always allowed fine (next way)) : Always allowed fine (.pick others next) := by
  intro token marks last course
  rcases course.pick_cases with
    ⟨after, firing, rfl⟩ | ⟨way, before, after, more, firing, rfl, rest⟩
  · exact ⟨by simp [firing.signals_eq], nofun⟩
  · simpa [firing.signals_eq] using always way after more last rest

theorem among {ι : Type} {ways : List ι} {idle : Task σ α} {next : ι → Task σ α}
    (stuck : Always allowed fine idle) (on : ∀ way ∈ ways, Always allowed fine (next way)) :
    Always allowed fine (.among ways idle next) := by
  cases ways with
  | nil => exact stuck
  | cons first rest => exact .pick fun way => on _ (List.getElem_mem way.isLt)

theorem gate {released cancelled : Task σ α} (on : Always allowed fine released)
    (off : Always allowed fine cancelled) : Always allowed fine (.gate released cancelled) := by
  intro token marks last course
  rcases course.gate_cases with
    ⟨after, firing, rfl⟩ | ⟨before, after, more, firing, rfl, rest | ⟨rfl, rest⟩⟩
  · exact ⟨by simp [firing.signals_eq], nofun⟩
  · simpa [firing.signals_eq] using on after more last rest
  · simpa [firing.signals_eq] using off true more last rest

theorem hold {released : Task σ α} (always : Always allowed fine released) :
    Always allowed fine (.hold released) := by
  intro token marks last course
  rcases course.hold_cases with ⟨after, firing, rfl⟩ | ⟨before, after, more, firing, rfl, rest⟩
  · exact ⟨by simp [firing.signals_eq], nofun⟩
  · simpa [firing.signals_eq] using always after more last rest

theorem stall {cancelled : Task σ α} (always : Always allowed fine cancelled) :
    Always allowed fine (.stall cancelled) := by
  intro token marks last course
  rcases course.stall_cases with ⟨after, firing, rfl⟩ | ⟨before, more, firing, rfl, rest⟩
  · exact ⟨by simp [firing.signals_eq], nofun⟩
  · simpa [firing.signals_eq] using always true more last rest

theorem orLeave {leave next : Task σ α} (off : Always allowed fine leave)
    (on : Always allowed fine next) : Always allowed fine (.orLeave leave next) := by
  apply check
  intro cancelled
  split
  · apply pick
    intro way
    split
    · exact off
    · exact on
  · exact on

/-- The output of the first task is fine for the second one to go on with. -/
theorem bind {task : Task σ α} {next : α → Task σ β} {good : β → Prop}
    (first : Always allowed fine task)
    (second : ∀ output, fine output → Always allowed good (next output)) :
    Always allowed good (task.bind next) := by
  intro token marks last course
  cases course.bind_cases with
  | @inside _ _ rest begun going =>
      constructor
      · exact (first token marks _ begun).1
      · intro output ended
        have none := congrArg Task.output? ended
        rw [output?_bind next going] at none
        cases none
  | @through before more after output _ begun rest =>
      rcases first token _ _ begun with ⟨before, reached⟩
      rcases second output (reached output rfl) after _ _ rest with ⟨more, ended⟩
      constructor
      · intro signal member
        rw [signals_append, List.mem_append] at member
        exact member.elim (before signal) (more signal)
      · exact ended

theorem map {task : Task σ α} {change : α → β} {good : β → Prop}
    (always : Always allowed fine task) (changed : ∀ output, fine output → good (change output)) :
    Always allowed good (task.map change) :=
  always.bind fun output reached => .done (changed output reached)

theorem mono {other : σ → Prop} {good : α → Prop} {task : Task σ α}
    (always : Always allowed fine task) (weaker : ∀ signal, allowed signal → other signal)
    (better : ∀ output, fine output → good output) : Always other good task := by
  intro token marks last course
  rcases always token marks last course with ⟨signals, output⟩
  exact ⟨fun signal member => weaker signal (signals signal member),
    fun reached ended => better reached (output reached ended)⟩

end Always

end BridgeFinder.Task
