import BridgeFinder.Proofs.Schedule
import BridgeFinder.Task.Run

/-!
# Courses of tasks

A course says how a run of a task can lead to another one, and what can be seen on
the way.  It has one rule for every move of a task and one for the firing of the
token; `course_runBy` says that every schedule takes a course.

The other results take a course apart along the task.  Before a task makes its next
move, nothing can be seen but the firing of the token.
-/

namespace BridgeFinder.Task

variable {σ α β : Type}

/-- A run leads to another one, with the given marks. -/
inductive Course : Run σ α → List (Mark σ) → Run σ α → Prop where
  | rest (run : Run σ α) : Course run [] run
  | emit {token : Bool} {signal : σ} {next : Task σ α} {marks : List (Mark σ)}
      {last : Run σ α} (more : Course ⟨token, next⟩ marks last) :
      Course ⟨token, .emit signal next⟩ (.signal signal :: marks) last
  | check {token : Bool} {next : Bool → Task σ α} {marks : List (Mark σ)} {last : Run σ α}
      (more : Course ⟨token, next token⟩ marks last) :
      Course ⟨token, .check next⟩ (.looked token :: marks) last
  | pick {token : Bool} {others : Nat} {next : Fin (others + 1) → Task σ α}
      {marks : List (Mark σ)} {last : Run σ α} (way : Fin (others + 1))
      (more : Course ⟨token, next way⟩ marks last) :
      Course ⟨token, .pick others next⟩ marks last
  | gate {token : Bool} {released cancelled : Task σ α} {marks : List (Mark σ)}
      {last : Run σ α} (more : Course ⟨token, released⟩ marks last) :
      Course ⟨token, .gate released cancelled⟩ marks last
  | leave {released cancelled : Task σ α} {marks : List (Mark σ)} {last : Run σ α}
      (more : Course ⟨true, cancelled⟩ marks last) :
      Course ⟨true, .gate released cancelled⟩ marks last
  | hold {token : Bool} {released : Task σ α} {marks : List (Mark σ)} {last : Run σ α}
      (more : Course ⟨token, released⟩ marks last) : Course ⟨token, .hold released⟩ marks last
  | stall {cancelled : Task σ α} {marks : List (Mark σ)} {last : Run σ α}
      (more : Course ⟨true, cancelled⟩ marks last) : Course ⟨true, .stall cancelled⟩ marks last
  | fire {task : Task σ α} {marks : List (Mark σ)} {last : Run σ α}
      (more : Course ⟨true, task⟩ marks last) : Course ⟨false, task⟩ (.fired :: marks) last

namespace Course

/-- Courses can be joined. -/
theorem trans {first second third : Run σ α} {marks more : List (Mark σ)}
    (before : Course first marks second) (after : Course second more third) :
    Course first (marks ++ more) third := by
  induction before with
  | rest => exact after
  | emit _ ih => exact .emit (ih after)
  | check _ ih => exact .check (ih after)
  | pick way _ ih => exact .pick way (ih after)
  | gate _ ih => exact .gate (ih after)
  | leave _ ih => exact .leave (ih after)
  | hold _ ih => exact .hold (ih after)
  | stall _ ih => exact .stall (ih after)
  | fire _ ih => exact .fire (ih after)

/-- A turn takes a course. -/
theorem of_turn (next : Turn) (run : Run σ α) :
    Course run (Run.turn next run).1 (Run.turn next run).2 := by
  rcases run with ⟨token, task⟩
  cases next with
  | go way =>
      cases task with
      | done output => exact .rest _
      | emit signal next => exact .emit (.rest _)
      | check next => exact .check (.rest _)
      | pick others next =>
          by_cases bound : way < others + 1
          · simpa [Run.turn, move?, seen, bound] using Course.pick ⟨way, bound⟩ (.rest _)
          · simpa [Run.turn, move?, bound] using Course.rest _
      | gate released cancelled =>
          cases token with
          | false => exact .rest _
          | true => exact .leave (.rest _)
      | hold released => exact .rest _
      | stall cancelled =>
          cases token with
          | false => exact .rest _
          | true => exact .stall (.rest _)
  | release =>
      cases task with
      | gate released cancelled => exact .gate (.rest _)
      | hold released => exact .hold (.rest _)
      | done output => exact .rest _
      | emit signal next => exact .rest _
      | check next => exact .rest _
      | pick others next => exact .rest _
      | stall cancelled => exact .rest _
  | fire =>
      cases token with
      | false => exact .fire (.rest _)
      | true => exact .rest _

end Course

/-- Every schedule takes a course. -/
theorem course_runBy (turns : List Turn) (token : Bool) (task : Task σ α) :
    Course ⟨token, task⟩ (task.runBy turns token).1 (task.runBy turns token).2 := by
  have keeps : ∀ (history : List (Mark σ)) (run : Run σ α) (next : Turn),
      Course ⟨token, task⟩ history run →
        Course ⟨token, task⟩ (history ++ (Run.turn next run).1) (Run.turn next run).2 :=
    fun _ run next before => before.trans (.of_turn next run)
  simpa [runBy] using play_preserves keeps turns (.rest _)

/-- Every course is taken by a schedule. -/
theorem Course.exists_turns {run last : Run σ α} {marks : List (Mark σ)}
    (course : Course run marks last) : ∃ turns, play Run.turn turns run = (marks, last) := by
  induction course with
  | rest run => exact ⟨[], rfl⟩
  | emit _ ih | check _ ih | leave _ ih | stall _ ih =>
      rcases ih with ⟨turns, played⟩
      exact ⟨.go 0 :: turns, by simp [play_cons, Run.turn, move?, seen, played]⟩
  | pick way _ ih =>
      rcases ih with ⟨turns, played⟩
      refine ⟨.go way :: turns, ?_⟩
      simp only [play_cons, Run.turn, move?, dif_pos way.isLt, seen, played, List.nil_append]
  | gate _ ih | hold _ ih =>
      rcases ih with ⟨turns, played⟩
      exact ⟨.release :: turns, by simp [play_cons, Run.turn, release?, played]⟩
  | fire _ ih =>
      rcases ih with ⟨turns, played⟩
      exact ⟨.fire :: turns, by simp [play_cons, Run.turn, played]⟩

/-! ## Before the next move -/

/-- What can be seen while a task makes no move: the token may be fired. -/
inductive Firing : Bool → List (Mark σ) → Bool → Prop where
  | none (token : Bool) : Firing token [] token
  | once : Firing false [.fired] true

theorem Firing.signals_eq {token after : Bool} {marks : List (Mark σ)}
    (firing : Firing token marks after) : signals marks = [] := by
  cases firing <;> rfl

theorem Firing.looks_eq {token after : Bool} {marks : List (Mark σ)}
    (firing : Firing token marks after) : marks.filterMap Mark.look? = [] := by
  cases firing <;> rfl

theorem Firing.token_mono {token after : Bool} {marks : List (Mark σ)}
    (firing : Firing token marks after) : token = true → after = true := by
  cases firing <;> simp

namespace Course

variable {token : Bool} {marks : List (Mark σ)} {last : Run σ α}

theorem done_cases {output : α} (course : Course ⟨token, .done output⟩ marks last) :
    ∃ after, Firing token marks after ∧ last = ⟨after, .done output⟩ := by
  cases course with
  | rest => exact ⟨token, .none _, rfl⟩
  | fire more =>
      cases more with
      | rest => exact ⟨true, .once, rfl⟩

theorem emit_cases {signal : σ} {next : Task σ α}
    (course : Course ⟨token, .emit signal next⟩ marks last) :
    (∃ after, Firing token marks after ∧ last = ⟨after, .emit signal next⟩) ∨
      ∃ before after more, Firing token before after ∧ marks = before ++ .signal signal :: more ∧
        Course ⟨after, next⟩ more last := by
  cases course with
  | rest => exact .inl ⟨token, .none _, rfl⟩
  | emit more => exact .inr ⟨[], token, _, .none _, rfl, more⟩
  | fire more =>
      cases more with
      | rest => exact .inl ⟨true, .once, rfl⟩
      | emit more => exact .inr ⟨[.fired], true, _, .once, rfl, more⟩

theorem check_cases {next : Bool → Task σ α}
    (course : Course ⟨token, .check next⟩ marks last) :
    (∃ after, Firing token marks after ∧ last = ⟨after, .check next⟩) ∨
      ∃ before after more, Firing token before after ∧ marks = before ++ .looked after :: more ∧
        Course ⟨after, next after⟩ more last := by
  cases course with
  | rest => exact .inl ⟨token, .none _, rfl⟩
  | check more => exact .inr ⟨[], token, _, .none _, rfl, more⟩
  | fire more =>
      cases more with
      | rest => exact .inl ⟨true, .once, rfl⟩
      | check more => exact .inr ⟨[.fired], true, _, .once, rfl, more⟩

theorem pick_cases {others : Nat} {next : Fin (others + 1) → Task σ α}
    (course : Course ⟨token, .pick others next⟩ marks last) :
    (∃ after, Firing token marks after ∧ last = ⟨after, .pick others next⟩) ∨
      ∃ way before after more, Firing token before after ∧ marks = before ++ more ∧
        Course ⟨after, next way⟩ more last := by
  cases course with
  | rest => exact .inl ⟨token, .none _, rfl⟩
  | pick way more => exact .inr ⟨way, [], token, _, .none _, rfl, more⟩
  | fire more =>
      cases more with
      | rest => exact .inl ⟨true, .once, rfl⟩
      | pick way more => exact .inr ⟨way, [.fired], true, _, .once, rfl, more⟩

theorem gate_cases {released cancelled : Task σ α}
    (course : Course ⟨token, .gate released cancelled⟩ marks last) :
    (∃ after, Firing token marks after ∧ last = ⟨after, .gate released cancelled⟩) ∨
      ∃ before after more, Firing token before after ∧ marks = before ++ more ∧
        (Course ⟨after, released⟩ more last ∨ after = true ∧ Course ⟨true, cancelled⟩ more last) := by
  cases course with
  | rest => exact .inl ⟨token, .none _, rfl⟩
  | gate more => exact .inr ⟨[], token, _, .none _, rfl, .inl more⟩
  | leave more => exact .inr ⟨[], true, _, .none _, rfl, .inr ⟨rfl, more⟩⟩
  | fire more =>
      cases more with
      | rest => exact .inl ⟨true, .once, rfl⟩
      | gate more => exact .inr ⟨[.fired], true, _, .once, rfl, .inl more⟩
      | leave more => exact .inr ⟨[.fired], true, _, .once, rfl, .inr ⟨rfl, more⟩⟩

theorem hold_cases {released : Task σ α}
    (course : Course ⟨token, .hold released⟩ marks last) :
    (∃ after, Firing token marks after ∧ last = ⟨after, .hold released⟩) ∨
      ∃ before after more, Firing token before after ∧ marks = before ++ more ∧
        Course ⟨after, released⟩ more last := by
  cases course with
  | rest => exact .inl ⟨token, .none _, rfl⟩
  | hold more => exact .inr ⟨[], token, _, .none _, rfl, more⟩
  | fire more =>
      cases more with
      | rest => exact .inl ⟨true, .once, rfl⟩
      | hold more => exact .inr ⟨[.fired], true, _, .once, rfl, more⟩

theorem stall_cases {cancelled : Task σ α}
    (course : Course ⟨token, .stall cancelled⟩ marks last) :
    (∃ after, Firing token marks after ∧ last = ⟨after, .stall cancelled⟩) ∨
      ∃ before more, Firing token before true ∧ marks = before ++ more ∧
        Course ⟨true, cancelled⟩ more last := by
  cases course with
  | rest => exact .inl ⟨token, .none _, rfl⟩
  | stall more => exact .inr ⟨[], _, .none _, rfl, more⟩
  | fire more =>
      cases more with
      | rest => exact .inl ⟨true, .once, rfl⟩
      | stall more => exact .inr ⟨[.fired], _, .once, rfl, more⟩

/-- A task that goes on in one of several ways idles, or it has not yet moved, or it has
taken one of the ways. -/
theorem among_cases {ι : Type} {ways : List ι} {idle : Task σ α} {next : ι → Task σ α}
    (course : Course ⟨token, .among ways idle next⟩ marks last) :
    ways = [] ∧ Course ⟨token, idle⟩ marks last ∨
      (∃ after, Firing token marks after ∧ last.token = after ∧ last.task.output? = none ∧
        ¬ last.Rests) ∨
      ∃ way ∈ ways, ∃ before after more, Firing token before after ∧ marks = before ++ more ∧
        Course ⟨after, next way⟩ more last := by
  cases ways with
  | nil => exact .inl ⟨rfl, course⟩
  | cons first rest =>
      rcases course.pick_cases with
        ⟨after, firing, rfl⟩ | ⟨way, before, after, more, firing, rfl, picked⟩
      · have moves : ¬ Run.Rests ⟨after, .among (first :: rest) idle next⟩ := by
          intro rests
          cases rests 0
        exact .inr (.inl ⟨after, firing, rfl, rfl, moves⟩)
      · exact .inr (.inr ⟨_, List.getElem_mem way.isLt, before, after, more, firing, rfl, picked⟩)

/-- A task may go on in each of its ways. -/
theorem among_of_mem {ι : Type} {ways : List ι} {idle : Task σ α} {next : ι → Task σ α} {way : ι}
    (member : way ∈ ways) (more : Course ⟨token, next way⟩ marks last) :
    Course ⟨token, .among ways idle next⟩ marks last := by
  cases ways with
  | nil => cases member
  | cons first rest =>
      rcases List.getElem_of_mem member with ⟨place, inside, rfl⟩
      exact .pick ⟨place, inside⟩ more

end Course

/-! ## Tasks that go on with others -/

@[simp]
theorem output?_done (output : α) : (done output : Task σ α).output? = some output :=
  rfl

/-- A task that goes on with another one has not ended while the first one has not. -/
theorem output?_bind (next : α → Task σ β) {task : Task σ α} (going : task.output? = none) :
    (task.bind next).output? = none := by
  cases task with
  | done output => cases going
  | emit | check | pick | gate | hold | stall => rfl

theorem output?_map (change : α → β) (task : Task σ α) :
    (task.map change).output? = task.output?.map change := by
  cases task <;> rfl

/-- While a task makes no move, it stays what it is. -/
theorem Firing.course {token after : Bool} {marks : List (Mark σ)}
    (firing : Firing token marks after) (task : Task σ α) :
    Course ⟨token, task⟩ marks ⟨after, task⟩ := by
  cases firing with
  | none => exact .rest _
  | once => exact .fire (.rest _)

/-- What a course of a task that goes on with another one comes to: it is still inside
the first one, or it has gone through it to the second. -/
inductive BindCourse (next : α → Task σ β) (token : Bool) (task : Task σ α) :
    List (Mark σ) → Run σ β → Prop where
  | inside {marks : List (Mark σ)} {after : Bool} {rest : Task σ α}
      (first : Course ⟨token, task⟩ marks ⟨after, rest⟩) (going : rest.output? = none) :
      BindCourse next token task marks ⟨after, rest.bind next⟩
  | through {before more : List (Mark σ)} {after : Bool} {output : α} {last : Run σ β}
      (first : Course ⟨token, task⟩ before ⟨after, .done output⟩)
      (second : Course ⟨after, next output⟩ more last) :
      BindCourse next token task (before ++ more) last

namespace BindCourse

variable {next : α → Task σ β} {token after : Bool} {task rest : Task σ α}
  {before more : List (Mark σ)} {last : Run σ β}

/-- A course that begins in the first task and goes on with the rest of it. -/
theorem extend (begun : ∀ {marks : List (Mark σ)} {target : Run σ α},
      Course ⟨after, rest⟩ marks target → Course ⟨token, task⟩ (before ++ marks) target)
    (course : BindCourse next after rest more last) :
    BindCourse next token task (before ++ more) last := by
  cases course with
  | inside first going => exact .inside (begun first) going
  | through first second =>
      rw [← List.append_assoc]
      exact .through (begun first) second

end BindCourse

/-- A course of a task that goes on with another one is inside the first one or has
gone through it. -/
theorem Course.bind_cases {next : α → Task σ β} {token : Bool} {task : Task σ α}
    {marks : List (Mark σ)} {last : Run σ β}
    (course : Course ⟨token, task.bind next⟩ marks last) :
    BindCourse next token task marks last := by
  induction task generalizing token marks with
  | done output =>
      rw [← List.nil_append marks]
      exact .through (.rest _) course
  | emit signal rest ih =>
      rcases course.emit_cases with
        ⟨after, firing, rfl⟩ | ⟨before, after, more, firing, rfl, more'⟩
      · exact .inside (firing.course (.emit signal rest)) rfl
      · rw [List.append_cons]
        apply (ih more').extend
        intro _ _ course
        rw [List.append_assoc]
        exact (firing.course _).trans (.emit course)
  | check rest ih =>
      rcases course.check_cases with
        ⟨after, firing, rfl⟩ | ⟨before, after, more, firing, rfl, more'⟩
      · exact .inside (firing.course (.check rest)) rfl
      · rw [List.append_cons]
        apply (ih after more').extend
        intro _ _ course
        rw [List.append_assoc]
        exact (firing.course _).trans (.check course)
  | pick others rest ih =>
      rcases course.pick_cases with
        ⟨after, firing, rfl⟩ | ⟨way, before, after, more, firing, rfl, more'⟩
      · exact .inside (firing.course (.pick others rest)) rfl
      · exact (ih way more').extend fun course => (firing.course _).trans (.pick way course)
  | gate released cancelled ihReleased ihCancelled =>
      rcases course.gate_cases with
        ⟨after, firing, rfl⟩ | ⟨before, after, more, firing, rfl, more' | ⟨rfl, more'⟩⟩
      · exact .inside (firing.course (.gate released cancelled)) rfl
      · exact (ihReleased more').extend fun course => (firing.course _).trans (.gate course)
      · exact (ihCancelled more').extend fun course => (firing.course _).trans (.leave course)
  | hold released ih =>
      rcases course.hold_cases with
        ⟨after, firing, rfl⟩ | ⟨before, after, more, firing, rfl, more'⟩
      · exact .inside (firing.course (.hold released)) rfl
      · exact (ih more').extend fun course => (firing.course _).trans (.hold course)
  | stall cancelled ih =>
      rcases course.stall_cases with
        ⟨after, firing, rfl⟩ | ⟨before, more, firing, rfl, more'⟩
      · exact .inside (firing.course (.stall cancelled)) rfl
      · exact (ih more').extend fun course => (firing.course _).trans (.stall course)

/-- A task whose output is changed takes the courses of the task itself. -/
theorem Course.map_cases {change : α → β} {token : Bool} {task : Task σ α}
    {marks : List (Mark σ)} {last : Run σ β}
    (course : Course ⟨token, task.map change⟩ marks last) :
    ∃ after rest, Course ⟨token, task⟩ marks ⟨after, rest⟩ ∧ last = ⟨after, rest.map change⟩ := by
  cases course.bind_cases with
  | inside first going => exact ⟨_, _, first, rfl⟩
  | @through _ _ _ output _ first second =>
      rcases second.done_cases with ⟨after, firing, rfl⟩
      exact ⟨after, .done output, first.trans (firing.course _), rfl⟩

/-! ## Signals in a row -/

@[simp]
theorem signals_append (first second : List (Mark σ)) :
    signals (first ++ second) = signals first ++ signals second :=
  List.filterMap_append

@[simp]
theorem signals_cons_signal (signal : σ) (marks : List (Mark σ)) :
    signals (.signal signal :: marks) = signal :: signals marks :=
  rfl

@[simp]
theorem signals_nil : signals ([] : List (Mark σ)) = [] :=
  rfl

@[simp]
theorem signals_cons_fired (marks : List (Mark σ)) : signals (.fired :: marks) = signals marks :=
  rfl

@[simp]
theorem signals_cons_looked (cancelled : Bool) (marks : List (Mark σ)) :
    signals (.looked cancelled :: marks) = signals marks :=
  rfl

/-- Signals in a row come in order, before anything else. -/
theorem Course.emitAll_cases {row : List σ} {next : Task σ α} {token : Bool}
    {marks : List (Mark σ)} {last : Run σ α}
    (course : Course ⟨token, .emitAll row next⟩ marks last) :
    (∃ first rest after, row = signals marks ++ first :: rest ∧
        last = ⟨after, .emitAll (first :: rest) next⟩) ∨
      ∃ before after more, Course ⟨token, .emitAll row next⟩ before ⟨after, next⟩ ∧
        signals before = row ∧ marks = before ++ more ∧ Course ⟨after, next⟩ more last := by
  induction row generalizing token marks with
  | nil => exact .inr ⟨[], token, marks, .rest _, rfl, rfl, course⟩
  | cons signal row ih =>
      rcases course.emit_cases with
        ⟨after, firing, rfl⟩ | ⟨before, after, more, firing, rfl, emitted⟩
      · exact .inl ⟨signal, row, after, by simp [firing.signals_eq], rfl⟩
      rcases ih emitted with
        ⟨first, rest, after, split, rfl⟩ | ⟨before', after', more', course', rfl, rfl, rest⟩
      · exact .inl ⟨first, rest, after, by simp [firing.signals_eq, split], rfl⟩
      · have lead : Course ⟨token, .emitAll (signal :: signals before') next⟩
            (before ++ .signal signal :: before') ⟨after', next⟩ :=
          (firing.course _).trans (.emit course')
        have same : signals (before ++ .signal signal :: before') = signal :: signals before' := by
          simp [firing.signals_eq]
        exact .inr ⟨_, after', more', lead, same, by simp, rest⟩

/-- A task that may be left has not moved yet, or it has been left, or it goes on. -/
theorem Course.orLeave_cases {leave next : Task σ α} {token : Bool} {marks : List (Mark σ)}
    {last : Run σ α} (course : Course ⟨token, .orLeave leave next⟩ marks last) :
    (signals marks = [] ∧ last.task.output? = none) ∨
      ∃ before after more, signals before = [] ∧ marks = before ++ more ∧
        (Course ⟨after, leave⟩ more last ∨ Course ⟨after, next⟩ more last) := by
  rcases course.check_cases with
    ⟨after, firing, rfl⟩ | ⟨before, found, more, firing, rfl, looked⟩
  · exact .inl ⟨firing.signals_eq, rfl⟩
  cases found with
  | false =>
      have silent : signals (before ++ [.looked false]) = [] := by
        simp [firing.signals_eq]
      exact .inr ⟨_, false, more, silent, by simp, .inr looked⟩
  | true =>
      rcases looked.pick_cases with
        ⟨after, firing', rfl⟩ | ⟨way, before', after, more, firing', rfl, picked⟩
      · exact .inl ⟨by simp [firing.signals_eq, firing'.signals_eq], rfl⟩
      · have silent : signals (before ++ .looked true :: before') = [] := by
          simp [firing.signals_eq, firing'.signals_eq]
        right
        refine ⟨_, after, more, silent, by simp, ?_⟩
        split at picked
        · exact .inl picked
        · exact .inr picked

end BridgeFinder.Task
