import BridgeFinder.Proofs.Task.Course

/-!
# The token of a task

The token that a task is run with is fired at most once.  Every look at it finds
whether that has happened, and so does the run in the end.
-/

namespace BridgeFinder.Task

variable {σ α β : Type}

namespace Course

variable {run last : Run σ α} {marks : List (Mark σ)}

/-- The token counts as fired in the end if it did in the beginning or was fired on the
way. -/
theorem token_iff (course : Course run marks last) :
    last.token = true ↔ run.token = true ∨ .fired ∈ marks := by
  induction course with
  | rest => simp
  | emit _ ih | check _ ih | pick _ _ ih | gate _ ih | leave _ ih | hold _ ih | stall _ ih =>
      simpa using ih
  | fire _ ih => simpa using ih

theorem token_of_token (course : Course run marks last) (token : run.token = true) :
    last.token = true :=
  course.token_iff.mpr (.inl token)

/-- A course may be cut anywhere. -/
theorem exists_middle {before after : List (Mark σ)} (course : Course run (before ++ after) last) :
    ∃ middle, Course run before middle ∧ Course middle after last := by
  generalize split : before ++ after = marks at course
  induction course generalizing before with
  | rest =>
      rcases List.append_eq_nil_iff.mp split with ⟨rfl, rfl⟩
      exact ⟨_, .rest _, .rest _⟩
  | pick way _ ih =>
      rcases ih split with ⟨middle, first, second⟩
      exact ⟨middle, .pick way first, second⟩
  | gate _ ih =>
      rcases ih split with ⟨middle, first, second⟩
      exact ⟨middle, .gate first, second⟩
  | leave _ ih =>
      rcases ih split with ⟨middle, first, second⟩
      exact ⟨middle, .leave first, second⟩
  | hold _ ih =>
      rcases ih split with ⟨middle, first, second⟩
      exact ⟨middle, .hold first, second⟩
  | stall _ ih =>
      rcases ih split with ⟨middle, first, second⟩
      exact ⟨middle, .stall first, second⟩
  | emit more ih =>
      rcases List.append_eq_cons_iff.mp split with ⟨rfl, rfl⟩ | ⟨before, rfl, rfl⟩
      · exact ⟨_, .rest _, .emit more⟩
      · rcases ih rfl with ⟨middle, first, second⟩
        exact ⟨middle, .emit first, second⟩
  | check more ih =>
      rcases List.append_eq_cons_iff.mp split with ⟨rfl, rfl⟩ | ⟨before, rfl, rfl⟩
      · exact ⟨_, .rest _, .check more⟩
      · rcases ih rfl with ⟨middle, first, second⟩
        exact ⟨middle, .check first, second⟩
  | fire more ih =>
      rcases List.append_eq_cons_iff.mp split with ⟨rfl, rfl⟩ | ⟨before, rfl, rfl⟩
      · exact ⟨_, .rest _, .fire more⟩
      · rcases ih rfl with ⟨middle, first, second⟩
        exact ⟨middle, .fire first, second⟩

/-- The next look at the token finds what it is now, if it is not fired before. -/
theorem token_of_looked {found : Bool} (course : Course run (.looked found :: marks) last) :
    found = run.token := by
  generalize seen : Mark.looked found :: marks = all at course
  induction course with
  | rest | emit | fire => cases seen
  | check => cases seen; rfl
  | pick _ _ ih | gate _ ih | leave _ ih | hold _ ih | stall _ ih => exact ih seen

/-- A look at the token finds whether it has been fired. -/
theorem looked_iff {before after : List (Mark σ)} {found : Bool}
    (course : Course run (before ++ .looked found :: after) last) :
    found = true ↔ run.token = true ∨ .fired ∈ before := by
  rcases course.exists_middle with ⟨middle, first, second⟩
  rw [second.token_of_looked]
  exact first.token_iff

/-- Where a look found the token fired, it is so in the end. -/
theorem token_of_look (course : Course run marks last)
    (seen : true ∈ marks.filterMap Mark.look?) : last.token = true := by
  rcases List.mem_filterMap.mp seen with ⟨mark, member, looked⟩
  rcases List.append_of_mem member with ⟨before, after, rfl⟩
  cases mark with
  | looked found =>
      cases looked
      exact course.token_iff.mpr
        ((course.looked_iff.mp rfl).imp_right (List.mem_append_left _))
  | signal | fired => cases looked

end Course

theorem Run.turn_fire (run : Run σ α) : (run.turn .fire).2 = ⟨true, run.task⟩ := by
  rcases run with ⟨token, task⟩
  cases token <;> rfl

/-- A task goes on with its token fired from where it is when that happens. -/
theorem exists_course_of_fire (before later : List Turn) (token : Bool) (task : Task σ α) :
    ∃ marks, Course ⟨true, (task.runBy before token).2.task⟩ marks
      (task.runBy (before ++ .fire :: later) token).2 := by
  have last : (task.runBy (before ++ .fire :: later) token).2 =
      ((task.runBy before token).2.task.runBy later true).2 := by
    rw [runBy, play_append, play_cons, Run.turn_fire]
    rfl
  rw [last]
  exact ⟨_, course_runBy later true _⟩

/-! ## Tasks at rest -/

/-- A task that goes on with another one rests where the first one does. -/
theorem Run.Rests.of_bind {token : Bool} {task : Task σ α} {next : α → Task σ β}
    (rests : Run.Rests ⟨token, task.bind next⟩) (going : task.output? = none) :
    Run.Rests ⟨token, task⟩ := by
  intro way
  have none := rests way
  cases task with
  | done output => cases going
  | emit | check => cases none
  | pick others next =>
      simp only [move?, Task.bind] at none ⊢
      split at none <;> simp_all
  | gate | stall =>
      cases token with
      | false => rfl
      | true => cases none
  | hold => rfl

end BridgeFinder.Task
