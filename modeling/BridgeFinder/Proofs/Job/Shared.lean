import BridgeFinder.Job.Shared
import BridgeFinder.Proofs.Job.Rest
import BridgeFinder.Proofs.Schedule

/-!
# How a job with several callers stands

Whatever calls are made and in whatever order the turns are taken, a job goes through its
life once: one call to run starts it, at most one call to cancel is accepted, its task ends,
it is decided whether it was cancelled, and the callback of the call that started it is called
with the outcome and returns.
-/

namespace BridgeFinder.Job.Shared

variable {σ α : Type}

/-! ## The life of a job -/

/-- The mark belongs to the life of the job. -/
def Mark.isMilestone : Mark σ α → Bool
  | .ran _ accepted | .cancelled _ accepted => accepted
  | .ended _ | .decided _ | .reported _ _ | .answered | .finished => true
  | .signal _ | .fired _ | .waited _ => false

/-- The marks that belong to the life of the job. -/
def milestones (marks : List (Mark σ α)) : List (Mark σ α) :=
  marks.filter Mark.isMilestone

/-- How far a job that was started has come. -/
inductive Progress (α : Type) where
  | executing
  | ended (output : α)
  | decided (output : α)
  | reported (output : α)
  | answered (output : α)
  | finished (output : α)

/-- The output of a task that has ended. -/
def Progress.output? : Progress α → Option α
  | executing => none
  | ended output | decided output | reported output | answered output | finished output =>
      some output

/-- The life of a job that was started. -/
structure Life (α : Type) where
  /-- The call to run that has started it. -/
  run : Nat
  /-- The call to cancel that was accepted while its task was being executed. -/
  early : Option Nat
  /-- The call to cancel that was accepted when its task had ended. -/
  late : Option Nat
  progress : Progress α

namespace Life

/-- A call to cancel was accepted. -/
def isCancelled (life : Life α) : Bool :=
  life.early.isSome || life.late.isSome

/-- The outcome, if the task ends with the given output. -/
def outcome (life : Life α) (output : α) : Outcome α :=
  ⟨output, life.isCancelled⟩

/-- The mark of a call to cancel that was accepted. -/
def request (call : Option Nat) : List (Mark σ α) :=
  (call.map fun call => .cancelled call true).toList

/-- What follows after the end of the task. -/
def conclusion (life : Life α) : List (Mark σ α) :=
  match life.progress with
  | .executing | .ended _ => []
  | .decided _ => [.decided life.isCancelled]
  | .reported output =>
      [.decided life.isCancelled, .reported life.run (life.outcome output)]
  | .answered output =>
      [.decided life.isCancelled, .reported life.run (life.outcome output), .answered]
  | .finished output =>
      [.decided life.isCancelled, .reported life.run (life.outcome output), .answered, .finished]

/-- The marks of a life, in their order. -/
def marks (life : Life α) : List (Mark σ α) :=
  .ran life.run true :: (request life.early ++ (life.progress.output?.map .ended).toList ++
    request life.late ++ life.conclusion)

/-- What follows after the end of the task comes last in a life. -/
theorem marks_onward {run : Nat} {early late : Option Nat} {first last : Progress α}
    {more : List (Mark σ α)} (same : first.output? = last.output?)
    (concluded : conclusion ⟨run, early, late, last⟩ = conclusion ⟨run, early, late, first⟩ ++ more) :
    marks ⟨run, early, late, last⟩ = marks ⟨run, early, late, first⟩ ++ more := by
  simp [marks, same, concluded]

/-- How far the job and its report are when the life has come so far. -/
def IsAt (life : Life α) (stage : Stage σ α) (report : Report) : Prop :=
  match life.progress with
  | .executing => (∃ task, stage = .executing task) ∧ report = .awaited
  | .ended output => stage = .returned output ∧ report = .awaited
  | .decided output => stage = .reporting (life.outcome output) ∧ report = .awaited
  | .reported output => stage = .reporting (life.outcome output) ∧ report = .called
  | .answered output => stage = .reporting (life.outcome output) ∧ report = .answered
  | .finished _ => stage = .finished ∧ report = .answered

end Life

/-- A job with its callers stands as its life says. -/
structure Lives (task : Task σ α) (life : Life α) (shared : Shared σ α) : Prop where
  follows : ∃ seen, Follows task seen shared.job ∧ wasCancelled seen = life.isCancelled
  isAt : life.IsAt shared.job.stage shared.report
  starting : shared.starting = none
  owner : shared.owner = some life.run
  /-- A call to cancel is accepted once, and after the end of the task only if none was
  before. -/
  once : life.late.isSome = true → life.early = none ∧ life.progress.output?.isSome = true
  /-- Only calls that were accepted fire the token. -/
  firing : shared.firing ≠ [] → life.isCancelled = true
  fired : life.isCancelled = true → shared.firing ≠ [] ∨ shared.job.token = true

/-- How a job with its callers stands: it has not been started, or its life has begun. -/
inductive Stands (task : Task σ α) (marks : List (Mark σ α)) (shared : Shared σ α) : Prop where
  | waiting (unborn : milestones marks = []) (job : shared.job = .new task)
      (starting : shared.starting = none) (firing : shared.firing = [])
      (report : shared.report = .awaited) : Stands task marks shared
  | claimed {call : Nat} (unborn : milestones marks = [])
      (job : shared.job = { Job.new task with stage := .claimed task })
      (starting : shared.starting = some call) (firing : shared.firing = [])
      (report : shared.report = .awaited) : Stands task marks shared
  | started (life : Life α) (told : milestones marks = life.marks)
      (lives : Lives task life shared) : Stands task marks shared

variable {task : Task σ α} {marks more : List (Mark σ α)} {shared : Shared σ α} {life : Life α}

theorem milestones_append (first second : List (Mark σ α)) :
    milestones (first ++ second) = milestones first ++ milestones second :=
  List.filter_append ..

/-- What does not belong to the life of the job changes nothing in how it stands. -/
theorem Stands.quiet (stands : Stands task marks shared) (none : milestones more = []) :
    Stands task (marks ++ more) shared := by
  have same : milestones (marks ++ more) = milestones marks := by
    rw [milestones_append, none, List.append_nil]
  cases stands with
  | waiting unborn job starting firing report =>
      exact .waiting (same.trans unborn) job starting firing report
  | claimed unborn job starting firing report =>
      exact .claimed (same.trans unborn) job starting firing report
  | started life told lives => exact .started life (same.trans told) lives

/-! ## Calls to run -/

theorem Stands.claim (stands : Stands task marks shared) (call : Nat) :
    Stands task (marks ++ (shared.claim call).1) (shared.claim call).2 := by
  cases claimed : shared.job.claim? with
  | none =>
      simp only [Shared.claim, claimed]
      exact stands.quiet rfl
  | some job =>
      simp only [Shared.claim, claimed, List.append_nil]
      cases stands with
      | waiting unborn fresh starting firing report =>
          rw [fresh] at claimed
          cases claimed
          exact .claimed unborn rfl rfl firing report
      | claimed unborn fresh starting firing report =>
          rw [fresh] at claimed
          cases claimed
      | started life told lives =>
          rcases lives.follows with ⟨seen, follows, -⟩
          rcases follows.course with ⟨-, rest, -, -, leaves⟩
          rcases shared with ⟨⟨state, token, stage⟩, starting, owner, firing, report⟩
          cases stage with
          | ready => exact leaves.elim
          | claimed | executing | returned | reporting | finished => cases claimed

theorem Stands.start (stands : Stands task marks shared) :
    Stands task (marks ++ shared.start.1) shared.start.2 := by
  cases stands with
  | waiting unborn fresh starting firing report =>
      simp only [Shared.start, starting, List.append_nil]
      exact .waiting unborn fresh starting firing report
  | started life told lives =>
      simp only [Shared.start, lives.starting, List.append_nil]
      exact .started life told lives
  | @claimed call unborn fresh starting firing report =>
      simp only [Shared.start, starting, fresh]
      have begun : Follows task [] (⟨.running, false, .executing task⟩ : Job σ α) := .run task
      apply Stands.started ⟨call, none, none, .executing⟩
      · rw [milestones_append, unborn]
        rfl
      · exact ⟨⟨[], begun, rfl⟩, ⟨⟨task, rfl⟩, report⟩, rfl, rfl, nofun,
          fun some => absurd firing some, nofun⟩

/-! ## Calls to cancel -/

/-- A call to cancel is accepted while the job is running. -/
theorem request?_eq_some {job next : Job σ α} (requested : job.request? = some next) :
    job.state = .running ∧ next = { job with state := .cancelled } := by
  rcases job with ⟨state, token, stage⟩
  cases state with
  | running =>
      cases requested
      exact ⟨rfl, rfl⟩
  | notStarted | cancelled | completed => cases requested

theorem Stands.cancel (stands : Stands task marks shared) (call : Nat) :
    Stands task (marks ++ (shared.cancel call).1) (shared.cancel call).2 := by
  cases requested : shared.job.request? with
  | none =>
      simp only [Shared.cancel, requested]
      exact stands.quiet rfl
  | some next =>
      simp only [Shared.cancel, requested]
      rcases request?_eq_some requested with ⟨running, rfl⟩
      cases stands with
      | waiting unborn fresh | claimed unborn fresh =>
          rw [fresh] at running
          cases running
      | started life told lives =>
          rcases lives.follows with ⟨seen, follows, same⟩
          rcases follows.of_running running with ⟨uncancelled, undecided⟩
          rw [same] at uncancelled
          have fresh : life.early = none ∧ life.late = none := by
            simpa [Life.isCancelled] using uncancelled
          rcases life with ⟨run, early, late, progress⟩
          obtain ⟨rfl, rfl⟩ : early = none ∧ late = none := fresh
          have requested' : Follows task (seen ++ [.cancelled]) _ := follows.request running
          have accepted : wasCancelled (seen ++ [.cancelled]) = true := by
            simp [wasCancelled, Job.Mark.isCancelled]
          have isAt := lives.isAt
          cases progress with
          | executing =>
              apply Stands.started ⟨run, some call, none, .executing⟩
              · rw [milestones_append, told]
                rfl
              · refine ⟨⟨_, requested', accepted⟩, isAt, lives.starting, lives.owner, ?_,
                  fun _ => rfl, fun _ => .inl (by simp)⟩
                intro late
                cases late
          | ended output =>
              apply Stands.started ⟨run, none, some call, .ended output⟩
              · rw [milestones_append, told]
                rfl
              · exact ⟨⟨_, requested', accepted⟩, isAt, lives.starting, lives.owner,
                  fun _ => ⟨rfl, rfl⟩, fun _ => rfl, fun _ => .inl (by simp)⟩
          | decided | reported | answered | finished =>
              have there := isAt.1
              rw [there] at undecided
              cases undecided

theorem Stands.fire (stands : Stands task marks shared) (place : Nat) :
    Stands task (marks ++ (shared.fire place).1) (shared.fire place).2 := by
  cases found : shared.firing[place]? with
  | none =>
      simp only [Shared.fire, found]
      exact stands.quiet rfl
  | some call =>
      simp only [Shared.fire, found]
      have some : shared.firing ≠ [] := by
        intro empty
        simp [empty] at found
      cases stands with
      | waiting unborn fresh starting firing | claimed unborn fresh starting firing =>
          exact absurd firing some
      | started life told lives =>
          have cancelled := lives.firing some
          rcases lives.follows with ⟨seen, follows, same⟩
          have state := follows.state_eq_cancelled_iff.mpr (same.trans cancelled)
          apply Stands.started life
          · rw [milestones_append, told]
            exact List.append_nil _
          · exact ⟨⟨seen, follows.fire state, same⟩, lives.isAt, lives.starting, lives.owner,
              lives.once, fun _ => cancelled, fun _ => .inr rfl⟩

/-! ## The task and its outcome -/

/-- Moves of the task leave the life of a job at its execution. -/
theorem Lives.executing (lives : Lives task life shared) {here : Task σ α}
    (executing : shared.job.stage = .executing here) : life.progress = .executing := by
  have isAt := lives.isAt
  rw [executing] at isAt
  rcases life with ⟨run, early, late, progress⟩
  cases progress with
  | executing => rfl
  | ended | decided | reported | answered | finished => cases isAt.1

/-- While the task is being executed, its moves change nothing else. -/
theorem Lives.moved (lives : Lives task life shared) {here next : Task σ α}
    {seen : List (Job.Mark σ)} (executing : shared.job.stage = .executing here)
    (follows : Follows task seen { shared.job with stage := .executing next })
    (same : wasCancelled seen = life.isCancelled) :
    Lives task life { shared with job := { shared.job with stage := .executing next } } where
  follows := ⟨seen, follows, same⟩
  isAt := by
    have isAt := lives.isAt
    simp only [Life.IsAt, lives.executing executing] at isAt ⊢
    exact ⟨⟨next, rfl⟩, isAt.2⟩
  starting := lives.starting
  owner := lives.owner
  once := lives.once
  firing := lives.firing
  fired := lives.fired

/-- The task has ended: its output is part of the life of the job. -/
theorem Lives.ended (lives : Lives task life shared) {output : α}
    (executing : shared.job.stage = .executing (.done output)) :
    Lives task { life with progress := .ended output }
        { shared with job := { shared.job with stage := .returned output } } ∧
      { life with progress := .ended output }.marks = life.marks ++ [(.ended output : Mark σ α)] := by
  have progress := lives.executing executing
  have once := lives.once
  have isAt := lives.isAt
  have fired := lives.fired
  have firing := lives.firing
  rcases lives.follows with ⟨seen, follows, same⟩
  rcases life with ⟨run, early, late, _⟩
  cases progress
  obtain rfl : late = none := by
    cases late with
    | none => rfl
    | some call => cases (once rfl).2
  constructor
  · exact ⟨⟨seen, follows.ended executing, same⟩, ⟨rfl, isAt.2⟩, lives.starting, lives.owner,
      nofun, firing, fired⟩
  · simp [Life.marks, Life.request, Life.conclusion, Progress.output?]

theorem milestones_signals (row : List σ) :
    milestones (row.map .signal : List (Mark σ α)) = [] := by
  simp [milestones, Mark.isMilestone]

/-- Where a job moves, its task does, or it has ended. -/
theorem move?_eq_some {way : Nat} {row : List σ} {job next : Job σ α}
    (moved : job.move? way = some (row, next)) :
    (∃ here rest, job.stage = .executing here ∧ here.move? job.token way = some (row, rest) ∧
        next = { job with stage := .executing rest }) ∨
      ∃ output, job.stage = .executing (.done output) ∧ row = [] ∧
        next = { job with stage := .returned output } := by
  rcases job with ⟨state, token, stage⟩
  cases stage with
  | ready | claimed | returned | reporting | finished => cases moved
  | executing here =>
      cases on : here.move? token way with
      | some step =>
          rw [move?_executing on] at moved
          cases moved
          exact .inl ⟨here, step.2, rfl, on, rfl⟩
      | none =>
          cases here with
          | done output =>
              cases moved
              exact .inr ⟨output, rfl, rfl, rfl⟩
          | emit | check | pick | gate | hold | stall => simp [move?, on] at moved

theorem Stands.go (stands : Stands task marks shared) (way : Nat) :
    Stands task (marks ++ (shared.go way).1) (shared.go way).2 := by
  cases moved : shared.job.move? way with
  | none =>
      simp only [Shared.go, moved]
      exact stands.quiet rfl
  | some step =>
      rcases step with ⟨row, next⟩
      simp only [Shared.go, moved]
      cases stands with
      | waiting unborn fresh | claimed unborn fresh =>
          rw [fresh] at moved
          cases moved
      | started life told lives =>
          rcases move?_eq_some moved with
            ⟨here, rest, executing, on, rfl⟩ | ⟨output, executing, rfl, rfl⟩
          · rcases lives.follows with ⟨seen, follows, same⟩
            apply Stands.started life
            · simp [milestones_append, told, milestones_signals, returned?]
            · exact lives.moved executing (follows.move executing on) (by simp [same])
          · rcases lives.ended executing with ⟨ended, told'⟩
            apply Stands.started _ _ ended
            rw [told', milestones_append, told]
            rfl

theorem Stands.release (stands : Stands task marks shared) :
    Stands task marks { shared with job := shared.job.release?.getD shared.job } := by
  cases released : shared.job.release? with
  | none => exact stands
  | some next =>
      cases stands with
      | waiting unborn fresh | claimed unborn fresh =>
          rw [fresh] at released
          cases released
      | started life told lives =>
          rcases lives.follows with ⟨seen, follows, same⟩
          rcases shared with ⟨⟨state, token, stage⟩, starting, owner, firing, report⟩
          cases stage with
          | ready | claimed | returned | reporting | finished => cases released
          | executing here =>
              rcases Option.map_eq_some_iff.mp released with ⟨rest, on, rfl⟩
              exact .started life told (lives.moved rfl (follows.release rfl on) same)

/-- The outcome is decided by whether a call to cancel was accepted. -/
theorem Lives.decided (lives : Lives task life shared) {next : Job σ α}
    (decided : shared.job.decide? = some next) :
    ∃ output, life.progress = .ended output ∧ next.outcome? = some (life.outcome output) ∧
      Lives task { life with progress := .decided output } { shared with job := next } := by
  rcases lives.follows with ⟨seen, follows, same⟩
  have followed := follows.turn .decide
  have came : shared.job.turn .decide = ([], next) := by
    simp only [Job.turn, decided, Option.getD_some]
  rw [came, List.append_nil] at followed
  have isAt := lives.isAt
  have once := lives.once
  rcases life with ⟨run, early, late, progress⟩
  rcases shared with ⟨⟨state, token, stage⟩, starting, owner, firing, report⟩
  cases stage with
  | ready | claimed | executing | reporting | finished => cases decided
  | returned output =>
      cases progress with
      | executing => cases isAt.1.choose_spec
      | decided | reported | answered | finished => cases isAt.1
      | ended output' =>
          obtain rfl : output = output' := by simpa using isAt.1
          have outcome : ∃ state' flag, next = ⟨state', token, .reporting ⟨output, flag⟩⟩ := by
            simp only [decide?] at decided
            split at decided <;> cases decided
            · exact ⟨_, _, rfl⟩
            · exact ⟨_, _, rfl⟩
          rcases outcome with ⟨state', flag, rfl⟩
          have flagged : flag = wasCancelled seen := followed.outcome _ rfl
          rw [same] at flagged
          subst flagged
          exact ⟨output, rfl, rfl, ⟨⟨seen, followed, same⟩, ⟨rfl, isAt.2⟩, lives.starting,
            lives.owner, once, lives.firing, lives.fired⟩⟩

theorem Stands.settle (stands : Stands task marks shared) :
    Stands task (marks ++ shared.settle.1) shared.settle.2 := by
  cases decided : shared.job.decide? with
  | none =>
      simp only [Shared.settle, decided]
      exact stands.quiet rfl
  | some next =>
      simp only [Shared.settle, decided]
      cases stands with
      | waiting unborn fresh | claimed unborn fresh =>
          rw [fresh] at decided
          cases decided
      | started life told lives =>
          rcases lives.decided decided with ⟨output, progress, outcome, lives⟩
          apply Stands.started _ _ lives
          rcases life with ⟨run, early, late, _⟩
          cases progress
          rw [milestones_append, told, outcome]
          symm
          apply Life.marks_onward <;> rfl

/-! ## The report -/

/-- Where the outcome can be reported, it has been decided. -/
theorem Lives.of_outcome (lives : Lives task life shared) {outcome : Outcome α}
    (decided : shared.job.outcome? = some outcome) :
    ∃ output, outcome = life.outcome output ∧
      (life.progress = .decided output ∧ shared.report = .awaited ∨
        life.progress = .reported output ∧ shared.report = .called ∨
        life.progress = .answered output ∧ shared.report = .answered) := by
  have isAt := lives.isAt
  rcases life with ⟨run, early, late, progress⟩
  rcases shared with ⟨⟨state, token, stage⟩, starting, owner, firing, report⟩
  cases stage with
  | ready | claimed | executing | returned | finished => cases decided
  | reporting found =>
      cases decided
      cases progress with
      | executing => cases isAt.1.choose_spec
      | ended | finished => cases isAt.1
      | decided output => exact ⟨output, by simpa using isAt.1, .inl ⟨rfl, isAt.2⟩⟩
      | reported output => exact ⟨output, by simpa using isAt.1, .inr (.inl ⟨rfl, isAt.2⟩)⟩
      | answered output => exact ⟨output, by simpa using isAt.1, .inr (.inr ⟨rfl, isAt.2⟩)⟩

/-- The report is under way only while the outcome is there to be reported. -/
theorem Lives.of_called (lives : Lives task life shared) (called : shared.report = .called) :
    ∃ output, life.progress = .reported output ∧
      shared.job.stage = .reporting (life.outcome output) := by
  have isAt := lives.isAt
  rcases life with ⟨run, early, late, progress⟩
  cases progress with
  | reported output => exact ⟨output, rfl, isAt.1⟩
  | executing | ended | decided | answered | finished =>
      have report := isAt.2
      rw [called] at report
      cases report

/-- The callback is called where it waits for an outcome that is there. -/
theorem tell_cases (shared : Shared σ α) :
    shared.tell = ([], shared) ∨
      ∃ call outcome, shared.report = .awaited ∧ shared.owner = some call ∧
        shared.job.outcome? = some outcome ∧
        shared.tell = ([.reported call outcome], { shared with report := .called }) := by
  rcases shared with ⟨job, starting, owner, firing, report⟩
  cases report with
  | called | answered => exact .inl rfl
  | awaited =>
      cases owner with
      | none => exact .inl rfl
      | some call =>
          cases decided : job.outcome? with
          | none => exact .inl (by simp [Shared.tell, decided])
          | some outcome => exact .inr ⟨call, outcome, rfl, rfl, rfl, by simp [Shared.tell, decided]⟩

theorem Stands.tell (stands : Stands task marks shared) :
    Stands task (marks ++ shared.tell.1) shared.tell.2 := by
  rcases shared.tell_cases with same | ⟨call, outcome, report, owner, decided, tells⟩
  · rw [same]
    exact stands.quiet rfl
  · rw [tells]
    cases stands with
    | waiting unborn fresh | claimed unborn fresh =>
        rw [fresh] at decided
        cases decided
    | started life told lives =>
        obtain rfl : life.run = call := Option.some.inj (lives.owner.symm.trans owner)
        rcases lives.of_outcome decided with
          ⟨output, rfl, ⟨progress, -⟩ | ⟨-, other⟩ | ⟨-, other⟩⟩
        · have isAt := lives.isAt
          have once := lives.once
          rcases life with ⟨run, early, late, _⟩
          cases progress
          apply Stands.started ⟨run, early, late, .reported output⟩
          · rw [milestones_append, told]
            symm
            apply Life.marks_onward <;> rfl
          · exact ⟨lives.follows, ⟨isAt.1, rfl⟩, lives.starting, owner, once, lives.firing,
              lives.fired⟩
        · rw [report] at other
          cases other
        · rw [report] at other
          cases other

theorem Stands.answer (stands : Stands task marks shared) :
    Stands task (marks ++ shared.answer.1) shared.answer.2 := by
  cases report : shared.report with
  | awaited | answered =>
      simp only [Shared.answer, report]
      exact stands.quiet rfl
  | called =>
      simp only [Shared.answer, report]
      cases stands with
      | waiting unborn fresh starting firing awaited
      | claimed unborn fresh starting firing awaited =>
          rw [report] at awaited
          cases awaited
      | started life told lives =>
          rcases lives.of_called report with ⟨output, progress, stage⟩
          have once := lives.once
          rcases life with ⟨run, early, late, _⟩
          cases progress
          apply Stands.started ⟨run, early, late, .answered output⟩
          · rw [milestones_append, told]
            symm
            apply Life.marks_onward <;> rfl
          · exact ⟨lives.follows, ⟨stage, rfl⟩, lives.starting, lives.owner, once,
              lives.firing, lives.fired⟩

/-- The job counts as finished where the callback has returned. -/
theorem finish_cases (shared : Shared σ α) :
    shared.finish = ([], shared) ∨
      ∃ outcome, shared.report = .answered ∧ shared.job.outcome? = some outcome ∧
        shared.finish = ([.finished], { shared with job := shared.job.close }) := by
  rcases shared with ⟨job, starting, owner, firing, report⟩
  cases report with
  | awaited | called => exact .inl rfl
  | answered =>
      cases decided : job.outcome? with
      | none => exact .inl (by simp [Shared.finish, decided])
      | some outcome => exact .inr ⟨outcome, rfl, rfl, by simp [Shared.finish, decided]⟩

/-- Where there is an outcome, closing the job ends it and leaves its state and its token. -/
theorem close_of_outcome {job : Job σ α} {outcome : Outcome α}
    (decided : job.outcome? = some outcome) : job.close = { job with stage := .finished } := by
  rcases job with ⟨state, token, stage⟩
  cases stage with
  | reporting => rfl
  | ready | claimed | executing | returned | finished => cases decided

theorem Stands.finish (stands : Stands task marks shared) :
    Stands task (marks ++ shared.finish.1) shared.finish.2 := by
  rcases shared.finish_cases with same | ⟨outcome, report, decided, finished⟩
  · rw [same]
    exact stands.quiet rfl
  · rw [finished]
    cases stands with
    | waiting unborn fresh | claimed unborn fresh =>
        rw [fresh] at decided
        cases decided
    | started life told lives =>
        rcases lives.of_outcome decided with
          ⟨output, rfl, ⟨-, other⟩ | ⟨-, other⟩ | ⟨progress, -⟩⟩
        · rw [report] at other
          cases other
        · rw [report] at other
          cases other
        · rcases lives.follows with ⟨seen, follows, same⟩
          have closed := follows.close
          rw [close_of_outcome decided] at closed ⊢
          have once := lives.once
          rcases life with ⟨run, early, late, _⟩
          cases progress
          apply Stands.started ⟨run, early, late, .finished output⟩
          · rw [milestones_append, told]
            symm
            apply Life.marks_onward <;> rfl
          · exact ⟨⟨seen, closed, same⟩, ⟨rfl, report⟩, lives.starting, lives.owner, once,
              lives.firing, lives.fired⟩

/-! ## What every turn preserves -/

/-- A call to wait changes nothing. -/
theorem Stands.wait (stands : Stands task marks shared) (call : Nat) :
    Stands task (marks ++ (shared.wait call).1) (shared.wait call).2 := by
  cases ended : shared.job.isOver with
  | true =>
      simp only [Shared.wait, ended]
      exact stands.quiet rfl
  | false =>
      simp only [Shared.wait, ended]
      exact stands.quiet rfl

theorem Stands.turn (stands : Stands task marks shared) (next : Turn) :
    Stands task (marks ++ (shared.turn next).1) (shared.turn next).2 := by
  cases next with
  | run call => exact stands.claim call
  | start => exact stands.start
  | cancel call => exact stands.cancel call
  | fire place => exact stands.fire place
  | go way => exact stands.go way
  | release => exact Stands.quiet stands.release rfl
  | decide => exact stands.settle
  | report => exact stands.tell
  | answer => exact stands.answer
  | finish => exact stands.finish
  | wait call => exact stands.wait call

theorem Stands.new (task : Task σ α) : Stands task [] (Shared.new task) :=
  .waiting rfl rfl rfl rfl rfl

/-- After every schedule a job with its callers stands as its life says. -/
theorem stands_workBy (task : Task σ α) (turns : List Turn) :
    Stands task ((Shared.new task).workBy turns).1 ((Shared.new task).workBy turns).2 :=
  play_preserves (fun _ _ next stands => stands.turn next) turns (Stands.new task)

/-! ## Calls that nothing comes between -/

/-- Both sections of a call to run start the job as the call does that nothing comes
between. -/
theorem job_workBy_run (call : Nat) (unclaimed : shared.starting = none) :
    (shared.workBy [.run call, .start]).2.job = shared.job.run.1 := by
  rcases shared with ⟨⟨state, token, stage⟩, starting, owner, firing, report⟩
  cases unclaimed
  cases stage with
  | ready task => cases state <;> rfl
  | claimed | executing | returned | reporting | finished => rfl

/-- Both sections of a call to cancel leave the job as the call does that nothing comes
between. -/
theorem job_workBy_cancel (call : Nat) (unfired : shared.firing = []) :
    (shared.workBy [.cancel call, .fire 0]).2.job = shared.job.cancel.1 := by
  rcases shared with ⟨⟨state, token, stage⟩, starting, owner, firing, report⟩
  cases unfired
  cases state <;> rfl

end BridgeFinder.Job.Shared
