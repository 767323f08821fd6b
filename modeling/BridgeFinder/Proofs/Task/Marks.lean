import BridgeFinder.Proofs.Task.Course

/-!
# What a task shows of itself

The firing of its token is not up to a task.  Apart from it, what can be seen of a task is what the
task lets be observed and when it looks at its token.  Signals at the front of a task come in their
order, before anything else.
-/

namespace BridgeFinder.Task

variable {σ α : Type}

/-- The mark says that the token was fired. -/
def Mark.isFired : Mark σ → Bool
  | .fired => true
  | .signal _ | .looked _ => false

/-- What can be seen of a task apart from the firing of its token. -/
def ownMarks (marks : List (Mark σ)) : List (Mark σ) :=
  marks.filter fun mark => !mark.isFired

@[simp]
theorem ownMarks_append (first second : List (Mark σ)) :
    ownMarks (first ++ second) = ownMarks first ++ ownMarks second :=
  List.filter_append ..

@[simp]
theorem ownMarks_nil : ownMarks ([] : List (Mark σ)) = [] :=
  rfl

@[simp]
theorem ownMarks_cons_signal (signal : σ) (marks : List (Mark σ)) :
    ownMarks (.signal signal :: marks) = .signal signal :: ownMarks marks :=
  rfl

@[simp]
theorem ownMarks_cons_looked (cancelled : Bool) (marks : List (Mark σ)) :
    ownMarks (.looked cancelled :: marks) = .looked cancelled :: ownMarks marks :=
  rfl

theorem Firing.ownMarks_eq {token after : Bool} {marks : List (Mark σ)}
    (firing : Firing token marks after) : ownMarks marks = [] := by
  cases firing <;> rfl

/-- The firing of the token is no signal. -/
theorem signals_ownMarks (marks : List (Mark σ)) : signals (ownMarks marks) = signals marks := by
  rw [signals, ownMarks, List.filterMap_filter, signals]
  congr
  funext mark
  cases mark <;> rfl

/-- Nor is it a look at the token. -/
theorem looks_ownMarks (marks : List (Mark σ)) :
    (ownMarks marks).filterMap Mark.look? = marks.filterMap Mark.look? := by
  rw [ownMarks, List.filterMap_filter]
  congr
  funext mark
  cases mark <;> rfl

/-- What a course of a task comes to that lets signals be observed and goes on with another task: it
is still among the signals, or they have all been observed. -/
inductive Led (next : Task σ α) (row : List σ) : List (Mark σ) → Run σ α → Prop where
  | inside {marks : List (Mark σ)} {last : Run σ α} (going : last.task.output? = none)
      (part : ownMarks marks <+: row.map .signal) : Led next row marks last
  | through {before more : List (Mark σ)} {after : Bool} {last : Run σ α}
      (shown : ownMarks before = row.map .signal) (rest : Course ⟨after, next⟩ more last) :
      Led next row (before ++ more) last

namespace Led

variable {next : Task σ α} {row : List σ} {token : Bool} {marks : List (Mark σ)} {last : Run σ α}

theorem nil (course : Course ⟨token, next⟩ marks last) : Led next [] marks last := by
  have shown : ownMarks ([] : List (Mark σ)) = ([] : List σ).map .signal := rfl
  exact .through shown course

/-- One signal comes before the others. -/
theorem cons {signal : σ} {rest : Task σ α} (course : Course ⟨token, .emit signal rest⟩ marks last)
    (others : ∀ {after more}, Course ⟨after, rest⟩ more last → Led next row more last) :
    Led next (signal :: row) marks last := by
  rcases course.emit_cases with ⟨after, firing, rfl⟩ | ⟨before, after, more, firing, rfl, later⟩
  · exact .inside rfl (by simp [firing.ownMarks_eq])
  · have lead : ownMarks (before ++ [.signal signal]) = [.signal signal] := by
      simp [firing.ownMarks_eq]
    rw [List.append_cons]
    cases others later with
    | inside going part =>
        apply inside going
        rw [ownMarks_append, lead]
        exact (List.prefix_append_right_inj _).mpr part
    | through shown rest =>
        rw [← List.append_assoc]
        apply through _ rest
        rw [ownMarks_append, lead, shown]
        rfl

theorem of_emitAll (course : Course ⟨token, .emitAll row next⟩ marks last) :
    Led next row marks last := by
  induction row generalizing token marks with
  | nil => exact .nil course
  | cons signal row ih => exact .cons course ih

end Led

end BridgeFinder.Task
