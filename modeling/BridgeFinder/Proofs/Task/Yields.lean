import BridgeFinder.Proofs.Task.Always

/-!
# What a task comes to

When a task has ended, all that it has let be observed and the output that it has ended with may
belong together.  A postcondition says how.  What is observed at the front of a task is taken into
the postcondition of the rest, so there is again one rule for every way in which tasks are put
together.
-/

namespace BridgeFinder.Task

variable {σ α β : Type} {sums : List σ → α → Prop}

/-- Whatever the schedule, if a task ends, its signals and its output belong together. -/
def Yields (sums : List σ → α → Prop) (task : Task σ α) : Prop :=
  ∀ token marks last output, Course ⟨token, task⟩ marks last → last.task = .done output →
    sums (signals marks) output

namespace Yields

theorem done {output : α} (good : sums [] output) : Yields sums (.done output) := by
  rintro token marks last output course ended
  rcases course.done_cases with ⟨after, firing, rfl⟩
  obtain rfl := Task.done.inj ended
  rw [firing.signals_eq]
  exact good

theorem emit {signal : σ} {next : Task σ α}
    (yields : Yields (fun more output => sums (signal :: more) output) next) :
    Yields sums (.emit signal next) := by
  intro token marks last output course ended
  rcases course.emit_cases with ⟨after, firing, rfl⟩ | ⟨before, after, more, firing, rfl, rest⟩
  · cases ended
  · simpa [firing.signals_eq] using yields after more last output rest ended

theorem emitAll {row : List σ} {next : Task σ α}
    (yields : Yields (fun more output => sums (row ++ more) output) next) :
    Yields sums (.emitAll row next) := by
  induction row generalizing sums with
  | nil => exact yields
  | cons signal row ih => exact .emit (ih yields)

theorem check {next : Bool → Task σ α} (yields : ∀ cancelled, Yields sums (next cancelled)) :
    Yields sums (.check next) := by
  intro token marks last output course ended
  rcases course.check_cases with ⟨after, firing, rfl⟩ | ⟨before, after, more, firing, rfl, rest⟩
  · cases ended
  · simpa [firing.signals_eq] using yields after after more last output rest ended

theorem pick {others : Nat} {next : Fin (others + 1) → Task σ α}
    (yields : ∀ way, Yields sums (next way)) : Yields sums (.pick others next) := by
  intro token marks last output course ended
  rcases course.pick_cases with
    ⟨after, firing, rfl⟩ | ⟨way, before, after, more, firing, rfl, rest⟩
  · cases ended
  · simpa [firing.signals_eq] using yields way after more last output rest ended

theorem among {ι : Type} {ways : List ι} {idle : Task σ α} {next : ι → Task σ α}
    (stuck : Yields sums idle) (on : ∀ way ∈ ways, Yields sums (next way)) :
    Yields sums (.among ways idle next) := by
  cases ways with
  | nil => exact stuck
  | cons first rest => exact .pick fun way => on _ (List.getElem_mem way.isLt)

theorem hold {released : Task σ α} (yields : Yields sums released) :
    Yields sums (.hold released) := by
  intro token marks last output course ended
  rcases course.hold_cases with ⟨after, firing, rfl⟩ | ⟨before, after, more, firing, rfl, rest⟩
  · cases ended
  · simpa [firing.signals_eq] using yields after more last output rest ended

theorem stall {cancelled : Task σ α} (yields : Yields sums cancelled) :
    Yields sums (.stall cancelled) := by
  intro token marks last output course ended
  rcases course.stall_cases with ⟨after, firing, rfl⟩ | ⟨before, more, firing, rfl, rest⟩
  · cases ended
  · simpa [firing.signals_eq] using yields true more last output rest ended

theorem orLeave {leave next : Task σ α} (off : Yields sums leave) (on : Yields sums next) :
    Yields sums (.orLeave leave next) := by
  apply check
  intro cancelled
  split
  · apply pick
    intro way
    split
    · exact off
    · exact on
  · exact on

/-- What the first task lets be observed does not matter to the postcondition of the second. -/
theorem bind {allowed : σ → Prop} {fine : α → Prop} {sums : List σ → β → Prop} {task : Task σ α}
    {next : α → Task σ β} (first : Always allowed fine task)
    (keeps : ∀ row more output, (∀ signal ∈ row, allowed signal) → sums more output →
      sums (row ++ more) output)
    (second : ∀ output, fine output → Yields sums (next output)) :
    Yields sums (task.bind next) := by
  intro token marks last output course ended
  cases course.bind_cases with
  | @inside _ _ rest begun going =>
      have none := congrArg Task.output? ended
      rw [output?_bind next going] at none
      cases none
  | @through before more after middle _ begun rest =>
      rcases first token _ _ begun with ⟨allowed, reached⟩
      rw [signals_append]
      exact keeps _ _ _ allowed
        (second middle (reached middle rfl) after more last output rest ended)

theorem mono {others : List σ → α → Prop} {task : Task σ α} (yields : Yields sums task)
    (weaker : ∀ row output, sums row output → others row output) : Yields others task :=
  fun token marks last output course ended =>
    weaker _ _ (yields token marks last output course ended)

end Yields

end BridgeFinder.Task
