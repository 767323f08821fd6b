import BridgeFinder.Proofs.Job.Shared
import Mathlib.Data.Prod.Lex

/-!
# The account of a job with several callers

Whatever calls are made, and however their sections and the steps of the job come between one
another, one call to run is accepted at most, and one call to cancel.  The callback is called
once at most, and it is told that the job was cancelled exactly if a call to cancel was
accepted.  By itself the job comes to rest, and then a task that has ended has been reported.
-/

namespace BridgeFinder.Job

/-- A state that is never left. -/
def State.isTerminal : State → Bool
  | cancelled | completed => true
  | notStarted | running => false

/-- How the state of a job moves in one turn. -/
inductive State.Moves : State → State → Prop where
  | stay (state : State) : Moves state state
  | start : Moves notStarted running
  | cancel : Moves running cancelled
  | complete : Moves running completed

namespace Shared

variable {σ α : Type}

/-- The call to run that is accepted. -/
def Mark.run? : Mark σ α → Option Nat
  | .ran call true => some call
  | _ => none

/-- The call to cancel that is accepted. -/
def Mark.cancel? : Mark σ α → Option Nat
  | .cancelled call true => some call
  | _ => none

/-- The outcome that is reported, with the call to run whose callback is called. -/
def Mark.report? : Mark σ α → Option (Nat × Outcome α)
  | .reported call outcome => some (call, outcome)
  | _ => none

/-- The calls to run that were accepted. -/
def runs (marks : List (Mark σ α)) : List Nat :=
  marks.filterMap Mark.run?

/-- The calls to cancel that were accepted. -/
def cancels (marks : List (Mark σ α)) : List Nat :=
  marks.filterMap Mark.cancel?

/-- The calls of callbacks. -/
def reports (marks : List (Mark σ α)) : List (Nat × Outcome α) :=
  marks.filterMap Mark.report?

/-- It has been decided whether the job was cancelled. -/
def IsDecided (marks : List (Mark σ α)) : Prop :=
  ∃ cancelled, Mark.decided cancelled ∈ marks

/-- The task has ended. -/
def HasEnded (marks : List (Mark σ α)) : Prop :=
  ∃ output, Mark.ended output ∈ marks

/-- The task hangs until the job is cancelled. -/
def Hangs (shared : Shared σ α) : Prop :=
  ∃ leave, shared.job.stage = .executing (.stall leave)

/-- The account of a job with several callers, by what can be seen of it and by what has
become of it. -/
structure Account (marks : List (Mark σ α)) (shared : Shared σ α) : Prop where
  /-- What belongs to the life of the job comes in the order of a life. -/
  life : milestones marks = [] ∨ ∃ life : Life α, milestones marks = life.marks
  run_once : (runs marks).length ≤ 1
  cancel_once : (cancels marks).length ≤ 1
  report_once : (reports marks).length ≤ 1
  /-- The callback that is called is that of the call to run that was accepted.  It is told
  the output of the task, and that the job was cancelled exactly if a call to cancel was
  accepted. -/
  reported : ∀ entry ∈ reports marks,
    entry.1 ∈ runs marks ∧ Mark.ended entry.2.output ∈ marks ∧
      (entry.2.cancelled = true ↔ cancels marks ≠ [])
  /-- As long as no call to run has claimed the task, the next one is accepted. -/
  accepts_run : runs marks = [] → shared.starting = none →
    ∀ call, (shared.workBy [.run call, .start]).1 = [.ran call true]
  /-- A call to cancel is accepted exactly if a call to run was, no other call to cancel was,
  and it is not decided yet whether the job was cancelled. -/
  accepts_cancel : ∀ call, (shared.turn (.cancel call)).1 = [.cancelled call true] ↔
    runs marks ≠ [] ∧ cancels marks = [] ∧ ¬ IsDecided marks
  /-- A call to cancel that is not accepted changes nothing. -/
  refuses_cancel : ∀ call, (shared.turn (.cancel call)).1 ≠ [.cancelled call true] →
    shared.turn (.cancel call) = ([.cancelled call false], shared)
  /-- The state is that of a job that was not started exactly if no call to run was accepted. -/
  notStarted : shared.job.state = .notStarted ↔ runs marks = []
  /-- In whatever turn, the state moves only onward. -/
  moves : ∀ next, State.Moves shared.job.state (shared.turn next).2.job.state
  /-- The job counts as finished only when its callback has returned, and then its state is
  terminal. -/
  finished : shared.job.isFinished = true →
    Mark.answered ∈ marks ∧ (reports marks).length = 1 ∧ shared.job.state.isTerminal = true
  /-- A call to wait returns exactly if the job was not started or is finished. -/
  waits : ∀ call, (shared.turn (.wait call)).1 = [.waited call] ↔
    runs marks = [] ∨ shared.job.isFinished = true
  /-- At rest a job that was started is finished, unless its task hangs and it has not been
  cancelled. -/
  rest : shared.Rests → runs marks ≠ [] →
    shared.job.isFinished = true ∨
      shared.Hangs ∧ cancels marks = [] ∧ ¬ HasEnded marks
  /-- By itself the job comes to rest. -/
  settles : ∃ turns, (∀ next ∈ turns, next.isOwn = true) ∧ (shared.workBy turns).2.Rests

/-! ## What a life shows -/

section

variable {task : Task σ α} {marks : List (Mark σ α)} {shared : Shared σ α} {life : Life α}

/-- What does not show outside of the life of a job shows in its life alone. -/
theorem filterMap_milestones {β : Type} {read : Mark σ α → Option β}
    (outside : ∀ mark, mark.isMilestone = false → read mark = none) (marks : List (Mark σ α)) :
    (milestones marks).filterMap read = marks.filterMap read := by
  rw [milestones, List.filterMap_filter]
  apply List.filterMap_congr
  intro mark _
  cases milestone : mark.isMilestone with
  | true => rfl
  | false => exact (outside mark milestone).symm

theorem runs_milestones (marks : List (Mark σ α)) : runs (milestones marks) = runs marks := by
  apply filterMap_milestones
  intro mark outside
  cases mark with
  | ran call accepted => cases outside; rfl
  | signal | cancelled | fired | ended | decided | reported | answered | finished | waited => rfl

theorem cancels_milestones (marks : List (Mark σ α)) :
    cancels (milestones marks) = cancels marks := by
  apply filterMap_milestones
  intro mark outside
  cases mark with
  | cancelled call accepted => cases outside; rfl
  | signal | ran | fired | ended | decided | reported | answered | finished | waited => rfl

theorem reports_milestones (marks : List (Mark σ α)) :
    reports (milestones marks) = reports marks := by
  apply filterMap_milestones
  intro mark outside
  cases mark with
  | reported call outcome => cases outside
  | signal | ran | cancelled | fired | ended | decided | answered | finished | waited => rfl

theorem mem_milestones {mark : Mark σ α} (milestone : mark.isMilestone = true) :
    mark ∈ milestones marks ↔ mark ∈ marks := by
  simp [milestones, milestone]

namespace Life

/-- It has been decided whether the job was cancelled. -/
def isDecided (life : Life α) : Bool :=
  match life.progress with
  | .executing | .ended _ => false
  | .decided _ | .reported _ | .answered _ | .finished _ => true

/-- The output that the callback was told. -/
def told? (life : Life α) : Option α :=
  match life.progress with
  | .executing | .ended _ | .decided _ => none
  | .reported output | .answered output | .finished output => some output

theorem runs_marks (life : Life α) : runs (life.marks : List (Mark σ α)) = [life.run] := by
  rcases life with ⟨run, early, late, progress⟩
  cases early <;> cases late <;> cases progress <;> rfl

theorem cancels_marks (life : Life α) :
    cancels (life.marks : List (Mark σ α)) = life.early.toList ++ life.late.toList := by
  rcases life with ⟨run, early, late, progress⟩
  cases early <;> cases late <;> cases progress <;> rfl

theorem reports_marks (life : Life α) :
    reports (life.marks : List (Mark σ α)) =
      (life.told?.map fun output => (life.run, life.outcome output)).toList := by
  rcases life with ⟨run, early, late, progress⟩
  cases early <;> cases late <;> cases progress <;> rfl

theorem isDecided_marks (life : Life α) :
    IsDecided (life.marks : List (Mark σ α)) ↔ life.isDecided = true := by
  rcases life with ⟨run, early, late, progress⟩
  cases early <;> cases late <;> cases progress <;>
    simp [IsDecided, marks, request, conclusion, isDecided, Progress.output?]

theorem ended_mem_marks (life : Life α) (output : α) :
    (Mark.ended output : Mark σ α) ∈ life.marks ↔ life.progress.output? = some output := by
  rcases life with ⟨run, early, late, progress⟩
  cases early <;> cases late <;> cases progress <;>
    simp [marks, request, conclusion, Progress.output?, eq_comm]

theorem isCancelled_iff (life : Life α) :
    life.isCancelled = true ↔ life.early.toList ++ life.late.toList ≠ [] := by
  rcases life with ⟨run, early, late, progress⟩
  cases early <;> cases late <;> simp [isCancelled]

end Life

namespace Lives

theorem isDecided (lives : Lives task life shared) :
    shared.job.stage.isDecided = life.isDecided := by
  have isAt := lives.isAt
  rcases life with ⟨run, early, late, progress⟩
  cases progress with
  | executing =>
      rcases isAt.1 with ⟨here, stage⟩
      rw [stage]
      rfl
  | ended | decided | reported | answered | finished =>
      rw [isAt.1]
      rfl

/-- The state says whether a call to cancel was accepted. -/
theorem state (lives : Lives task life shared) : shared.job.state =
    if life.isCancelled then .cancelled else if life.isDecided then .completed else .running := by
  rcases lives.follows with ⟨seen, follows, same⟩
  rw [follows.state, same, lives.isDecided]

theorem state_ne_notStarted (lives : Lives task life shared) :
    shared.job.state ≠ .notStarted := by
  rcases lives.follows with ⟨seen, follows, -⟩
  exact follows.state_ne_notStarted

theorem state_eq_running (lives : Lives task life shared) :
    shared.job.state = .running ↔ life.isCancelled = false ∧ life.isDecided = false := by
  rw [lives.state]
  split
  · simp_all
  · split <;> simp_all

/-- When the job has finished, its callback was called once, and has returned. -/
theorem isFinished (lives : Lives task life shared) (finished : shared.job.isFinished = true) :
    ∃ output, life.progress = .finished output := by
  have isAt := lives.isAt
  rcases life with ⟨run, early, late, progress⟩
  cases progress with
  | finished output => exact ⟨output, rfl⟩
  | executing =>
      rcases isAt.1 with ⟨here, stage⟩
      simp [Job.isFinished, stage] at finished
  | ended | decided | reported | answered => simp [Job.isFinished, isAt.1] at finished

end Lives

/-! ## Calls -/

/-- Before any call to run is accepted, the state is that of a job that was not started. -/
theorem Stands.notStarted (stands : Stands task marks shared) :
    shared.job.state = .notStarted ↔ runs marks = [] := by
  rw [← runs_milestones]
  cases stands with
  | waiting unborn fresh | claimed unborn fresh => simp [unborn, fresh, Job.new, runs]
  | started life told lives => simp [told, Life.runs_marks, lives.state_ne_notStarted]

/-- A call to run is accepted if no other has claimed the task. -/
theorem Stands.accepts_run (stands : Stands task marks shared) (unstarted : runs marks = [])
    (unclaimed : shared.starting = none) (call : Nat) :
    (shared.workBy [.run call, .start]).1 = [.ran call true] := by
  cases stands with
  | waiting unborn fresh =>
      simp [workBy, play_cons, Shared.turn, Shared.claim, Shared.start, fresh, Job.new, claim?,
        start?]
  | claimed unborn fresh starting =>
      rw [unclaimed] at starting
      cases starting
  | started life told lives =>
      rw [← runs_milestones, told, Life.runs_marks] at unstarted
      cases unstarted

/-- A call to cancel is accepted exactly while the job is running. -/
theorem cancel_accepted (call : Nat) (shared : Shared σ α) :
    (shared.cancel call).1 = [.cancelled call true] ↔ shared.job.state = .running := by
  rcases shared with ⟨⟨state, token, stage⟩, starting, owner, firing, report⟩
  cases state <;> simp [Shared.cancel, request?]

/-- A call to cancel that is not accepted changes nothing. -/
theorem cancel_refused {call : Nat} {shared : Shared σ α}
    (refused : (shared.cancel call).1 ≠ [.cancelled call true]) :
    shared.cancel call = ([.cancelled call false], shared) := by
  cases requested : shared.job.request? with
  | none => simp only [Shared.cancel, requested]
  | some next =>
      apply absurd _ refused
      simp only [Shared.cancel, requested]

theorem Stands.accepts_cancel (stands : Stands task marks shared) :
    shared.job.state = .running ↔
      runs marks ≠ [] ∧ cancels marks = [] ∧ ¬ IsDecided marks := by
  cases stands with
  | waiting unborn fresh | claimed unborn fresh =>
      rw [← runs_milestones, unborn]
      simp [fresh, Job.new, runs]
  | started life told lives =>
      have decided : IsDecided marks ↔ life.isDecided = true := by
        rw [← Life.isDecided_marks (σ := σ), ← told]
        simp only [IsDecided]
        apply exists_congr
        intro flag
        exact (mem_milestones rfl).symm
      have cancelled := life.isCancelled_iff
      rw [lives.state_eq_running, ← runs_milestones, ← cancels_milestones, decided, told,
        Life.runs_marks, Life.cancels_marks]
      cases accepted : life.isCancelled <;> simp_all

/-- A call to wait returns exactly if the job was not started or is finished. -/
theorem wait_returns (call : Nat) (shared : Shared σ α) :
    (shared.wait call).1 = [.waited call] ↔
      shared.job.state = .notStarted ∨ shared.job.isFinished = true := by
  cases ended : shared.job.isOver with
  | true =>
      simp only [Shared.wait, ended]
      simpa [isOver] using ended
  | false =>
      simp only [Shared.wait, ended]
      simpa [isOver] using ended

/-! ## Moves of the state -/

/-- Before it is decided whether a job was cancelled, it is running or was cancelled. -/
theorem Lives.moves_decide (lives : Lives task life shared) {next : Job σ α}
    (decided : shared.job.decide? = some next) : State.Moves shared.job.state next.state := by
  have state := lives.state
  have undecided := lives.isDecided
  rcases shared with ⟨⟨state', token, stage⟩, starting, owner, firing, report⟩
  cases stage with
  | ready | claimed | executing | reporting | finished => cases decided
  | returned output =>
      have still : life.isDecided = false := undecided.symm
      rw [still] at state
      simp only [decide?] at decided
      split at decided
      · rename_i running
        cases decided
        obtain rfl : state' = .running := running.1
        exact .complete
      · cases decided
        cases accepted : life.isCancelled with
        | true =>
            obtain rfl : state' = .cancelled := by simpa [accepted] using state
            exact .stay _
        | false =>
            obtain rfl : state' = .running := by simpa [accepted] using state
            exact .cancel

theorem Stands.moves (stands : Stands task marks shared) (next : Turn) :
    State.Moves shared.job.state (shared.turn next).2.job.state := by
  cases next with
  | run call =>
      simp only [Shared.turn, Shared.claim]
      rcases shared with ⟨⟨state, token, stage⟩, starting, owner, firing, report⟩
      cases stage <;> exact .stay _
  | start =>
      simp only [Shared.turn, Shared.start]
      rcases shared with ⟨⟨state, token, stage⟩, starting, owner, firing, report⟩
      cases starting with
      | none => exact .stay _
      | some call =>
          cases state <;> cases stage <;> first | exact .stay _ | exact .start
  | cancel call =>
      simp only [Shared.turn, Shared.cancel]
      rcases shared with ⟨⟨state, token, stage⟩, starting, owner, firing, report⟩
      cases state <;> first | exact .stay _ | exact .cancel
  | fire place =>
      simp only [Shared.turn, Shared.fire]
      cases shared.firing[place]? <;> exact .stay _
  | go way =>
      simp only [Shared.turn, Shared.go]
      cases moved : shared.job.move? way with
      | none => exact .stay _
      | some step =>
          rcases step with ⟨row, job⟩
          rcases move?_eq_some moved with ⟨here, rest, -, -, rfl⟩ | ⟨output, -, -, rfl⟩
          · exact .stay _
          · exact .stay _
  | release =>
      simp only [Shared.turn]
      rcases shared with ⟨⟨state, token, stage⟩, starting, owner, firing, report⟩
      cases stage with
      | executing here =>
          simp only [release?]
          cases here.release? <;> exact .stay _
      | ready | claimed | returned | reporting | finished => exact .stay _
  | decide =>
      simp only [Shared.turn, Shared.settle]
      cases decided : shared.job.decide? with
      | none => exact .stay _
      | some job =>
          cases stands with
          | waiting unborn fresh | claimed unborn fresh =>
              rw [fresh] at decided
              cases decided
          | started life told lives => exact lives.moves_decide decided
  | report =>
      rcases shared.tell_cases with same | ⟨call, outcome, -, -, -, told⟩
      · simp only [Shared.turn, same]
        exact .stay _
      · simp only [Shared.turn, told]
        exact .stay _
  | answer =>
      simp only [Shared.turn, Shared.answer]
      cases shared.report <;> exact .stay _
  | finish =>
      rcases shared.finish_cases with same | ⟨outcome, -, decided, finished⟩
      · simp only [Shared.turn, same]
        exact .stay _
      · simp only [Shared.turn, finished, close_of_outcome decided]
        exact .stay _
  | wait call =>
      simp only [Shared.turn, Shared.wait]
      split <;> exact .stay _

/-! ## The report and the end -/

theorem Stands.reported (stands : Stands task marks shared) :
    ∀ entry ∈ reports marks,
      entry.1 ∈ runs marks ∧ Mark.ended entry.2.output ∈ marks ∧
        (entry.2.cancelled = true ↔ cancels marks ≠ []) := by
  intro entry
  rw [← reports_milestones, ← runs_milestones, ← cancels_milestones, ← mem_milestones rfl]
  cases stands with
  | waiting unborn | claimed unborn => simp [unborn, reports]
  | started life told lives =>
      rw [told, Life.reports_marks, Life.runs_marks, Life.cancels_marks, ← life.isCancelled_iff,
        Life.ended_mem_marks]
      intro member
      rcases life with ⟨run, early, late, progress⟩
      cases progress with
      | executing | ended | decided => cases member
      | reported output | answered output | finished output =>
          obtain rfl : entry = _ := List.mem_singleton.mp member
          exact ⟨List.mem_singleton_self _, rfl, Iff.rfl⟩

theorem Stands.finished (stands : Stands task marks shared)
    (finished : shared.job.isFinished = true) :
    Mark.answered ∈ marks ∧ (reports marks).length = 1 ∧
      shared.job.state.isTerminal = true := by
  cases stands with
  | waiting unborn fresh | claimed unborn fresh =>
      rw [fresh] at finished
      cases finished
  | started life told lives =>
      rw [← reports_milestones, ← mem_milestones rfl, told, Life.reports_marks, lives.state]
      rcases lives.isFinished finished with ⟨output, progress⟩
      rcases life with ⟨run, early, late, _⟩
      cases progress
      constructor
      · simp [Life.marks, Life.conclusion]
      · constructor
        · rfl
        · split <;> rfl

/-! ## A job at rest -/

/-- A token that has been fired stays as it is. -/
theorem fire_of_fired {job : Job σ α} (fired : job.token = true) : job.fire = job := by
  rcases job with ⟨state, token, stage⟩
  cases fired
  rfl

namespace Rests

/-- At rest, every call to cancel that was accepted has fired the token. -/
theorem firing (rests : shared.Rests) : shared.firing = [] := by
  cases firing : shared.firing with
  | nil => rfl
  | cons call rest =>
      have same := congrArg Prod.fst (rests (.fire 0) rfl)
      simp [Shared.turn, Shared.fire, firing] at same

/-- At rest, the callback of an outcome that is there has returned, and the job is finished. -/
theorem outcome (rests : shared.Rests) (lives : Lives task life shared) :
    shared.job.outcome? = none := by
  cases decided : shared.job.outcome? with
  | none => rfl
  | some outcome =>
      cases report : shared.report with
      | awaited =>
          have same := congrArg Prod.fst (rests .report rfl)
          simp [Shared.turn, Shared.tell, report, lives.owner, decided] at same
      | called =>
          have same := congrArg Prod.fst (rests .answer rfl)
          simp [Shared.turn, Shared.answer, report] at same
      | answered =>
          have same := congrArg Prod.fst (rests .finish rfl)
          simp [Shared.turn, Shared.finish, report, decided] at same

/-- At rest, no turn of the job itself changes it. -/
theorem job (rests : shared.Rests) (lives : Lives task life shared) {next : Job.Turn}
    (own : next ≠ .request) : (shared.job.turn next).2 = shared.job := by
  cases next with
  | request => exact absurd rfl own
  | fire =>
      simp only [Job.turn]
      split
      · rename_i cancelled
        rcases lives.follows with ⟨seen, follows, same⟩
        have accepted : life.isCancelled = true := by
          rw [← same]
          exact follows.state_eq_cancelled_iff.mp cancelled
        have fired := (lives.fired accepted).resolve_left (absurd rests.firing)
        exact fire_of_fired fired
      · rfl
  | go way =>
      have same := congrArg (fun step => step.2.job) (rests (.go way) rfl)
      simp only [Shared.turn, Shared.go] at same
      simp only [Job.turn]
      cases moved : shared.job.move? way with
      | none => rfl
      | some step =>
          rw [moved] at same
          exact same
  | release => exact congrArg (fun step => step.2.job) (rests .release rfl)
  | decide =>
      have same := congrArg (fun step => step.2.job) (rests .decide rfl)
      simp only [Shared.turn, Shared.settle] at same
      simp only [Job.turn]
      cases decided : shared.job.decide? with
      | none => rfl
      | some next =>
          rw [decided] at same
          exact same

end Rests

theorem Stands.rest (stands : Stands task marks shared) (rests : shared.Rests)
    (begun : runs marks ≠ []) :
    shared.job.isFinished = true ∨
      shared.Hangs ∧ cancels marks = [] ∧ ¬ HasEnded marks := by
  have accepts := stands.accepts_cancel
  cases stands with
  | waiting unborn | claimed unborn =>
      rw [← runs_milestones, unborn] at begun
      exact absurd rfl begun
  | started life told lives =>
      rcases lives.follows with ⟨seen, follows, -⟩
      rcases follows.cases_of_idle (fun next own => rests.job lives own) with
        ⟨outcome, decided⟩ | finished | ⟨⟨leave, stage⟩, running, -⟩
      · rw [rests.outcome lives] at decided
        cases decided
      · exact .inl finished
      · right
        have progress := lives.executing stage
        constructor
        · exact ⟨leave, stage⟩
        · constructor
          · exact (accepts.mp running).2.1
          · rintro ⟨output, member⟩
            rw [← mem_milestones rfl, told, Life.ended_mem_marks, progress] at member
            cases member

/-! ## Coming to rest -/

/-- What is left of the report of an outcome. -/
def Report.weight : Report → Nat
  | .awaited => 2
  | .called => 1
  | .answered => 0

/-- What is left of a job and of the calls to it: first whether it is still to be started. -/
def leftover (shared : Shared σ α) : Nat × Nat :=
  (if shared.starting.isSome then 1 else 0,
    shared.job.weight + shared.firing.length + shared.report.weight)

/-- Less is left where the job has been started, or as much of that and less of the rest. -/
def Below (first second : Shared σ α) : Prop :=
  Prod.Lex (· < ·) (· < ·) first.leftover second.leftover

theorem wellFounded_below : WellFounded (Below (σ := σ) (α := α)) :=
  InvImage.wf leftover (WellFounded.prod_lex Nat.lt_wfRel.wf Nat.lt_wfRel.wf)

/-- Where nothing is started, less may be left of the job, of the calls that are to fire its
token, and of the report. -/
theorem below_of_lt {job : Job σ α} {firing : List Nat} {report : Report}
    (less : job.weight + firing.length + report.weight <
      shared.job.weight + shared.firing.length + shared.report.weight) :
    Below { shared with job := job, firing := firing, report := report } shared :=
  .right _ less

theorem weight_fire (job : Job σ α) : job.fire.weight ≤ job.weight := by
  simp [Job.weight, Job.fire]

theorem weight_lt_of_move? {way : Nat} {row : List σ} {job next : Job σ α}
    (moved : job.move? way = some (row, next)) : next.weight < job.weight := by
  rcases move?_eq_some moved with ⟨here, rest, stage, on, rfl⟩ | ⟨output, stage, -, rfl⟩
  · have less := Task.depth_lt_of_move? on
    simpa [Job.weight, stage, Stage.weight] using less
  · simp [Job.weight, stage, Stage.weight]

theorem weight_lt_of_release? {job next : Job σ α} (released : job.release? = some next) :
    next.weight < job.weight := by
  rcases job with ⟨state, token, stage⟩
  cases stage with
  | ready | claimed | returned | reporting | finished => cases released
  | executing here =>
      rcases Option.map_eq_some_iff.mp released with ⟨rest, on, rfl⟩
      have less := Task.depth_lt_of_release? on
      simpa [Job.weight, Stage.weight] using less

theorem weight_lt_of_decide? {job next : Job σ α} (decided : job.decide? = some next) :
    next.weight < job.weight := by
  rcases job with ⟨state, token, stage⟩
  cases stage with
  | ready | claimed | executing | reporting | finished => cases decided
  | returned output =>
      simp only [decide?] at decided
      split at decided <;> cases decided <;> simp [Job.weight, Stage.weight]

/-- A turn of its own changes nothing in a job and the calls to it, or leaves less of them. -/
theorem below_turn {next : Turn} (own : next.isOwn = true) (shared : Shared σ α) :
    shared.turn next = ([], shared) ∨ (shared.turn next).2.Below shared := by
  cases next with
  | run | cancel | wait => cases own
  | start =>
      cases starting : shared.starting with
      | none => exact .inl (by simp only [Shared.turn, Shared.start, starting])
      | some call =>
          right
          simp only [Shared.turn, Shared.start, starting]
          cases shared.job.start? with
          | none =>
              simp only [Below, leftover, starting]
              exact .left _ _ Nat.zero_lt_one
          | some job =>
              simp only [Below, leftover, starting]
              exact .left _ _ Nat.zero_lt_one
  | fire place =>
      cases found : shared.firing[place]? with
      | none => exact .inl (by simp only [Shared.turn, Shared.fire, found])
      | some call =>
          right
          rcases List.getElem?_eq_some_iff.mp found with ⟨bound, -⟩
          have fired := weight_fire shared.job
          have fewer := List.length_eraseIdx_of_lt bound
          simp only [Shared.turn, Shared.fire, found]
          apply below_of_lt
          omega
  | go way =>
      cases moved : shared.job.move? way with
      | none => exact .inl (by simp only [Shared.turn, Shared.go, moved])
      | some step =>
          right
          have less := weight_lt_of_move? moved
          simp only [Shared.turn, Shared.go, moved]
          apply below_of_lt
          omega
  | release =>
      cases released : shared.job.release? with
      | none => exact .inl (by simp only [Shared.turn, released, Option.getD_none])
      | some job =>
          right
          have less := weight_lt_of_release? released
          simp only [Shared.turn, released, Option.getD_some]
          apply below_of_lt
          omega
  | decide =>
      cases decided : shared.job.decide? with
      | none => exact .inl (by simp only [Shared.turn, Shared.settle, decided])
      | some job =>
          right
          have less := weight_lt_of_decide? decided
          simp only [Shared.turn, Shared.settle, decided]
          apply below_of_lt
          omega
  | report =>
      rcases shared.tell_cases with same | ⟨call, outcome, awaited, -, -, told⟩
      · exact .inl same
      · right
        simp only [Shared.turn, told]
        apply below_of_lt
        simp only [awaited, Report.weight]
        omega
  | answer =>
      cases report : shared.report with
      | awaited | answered => exact .inl (by simp only [Shared.turn, Shared.answer, report])
      | called =>
          right
          simp only [Shared.turn, Shared.answer, report]
          apply below_of_lt
          simp only [report, Report.weight]
          omega
  | finish =>
      rcases shared.finish_cases with same | ⟨outcome, -, decided, finished⟩
      · exact .inl same
      · right
        have less := weight_close_lt decided
        simp only [Shared.turn, finished]
        apply below_of_lt
        omega

/-- By itself, a job with its callers comes to rest. -/
theorem exists_rests (shared : Shared σ α) :
    ∃ turns, (∀ next ∈ turns, next.isOwn = true) ∧ (shared.workBy turns).2.Rests :=
  exists_play_rests wellFounded_below (fun _ own shared => below_turn own shared) shared

/-! ## The account -/

/-- How a job with its callers stands is its account. -/
theorem Stands.account (stands : Stands task marks shared) : Account marks shared where
  life := by
    cases stands with
    | waiting unborn | claimed unborn => exact .inl unborn
    | started life told => exact .inr ⟨life, told⟩
  run_once := by
    rw [← runs_milestones]
    cases stands with
    | waiting unborn | claimed unborn => simp [unborn, runs]
    | started life told => simp [told, Life.runs_marks]
  cancel_once := by
    rw [← cancels_milestones]
    cases stands with
    | waiting unborn | claimed unborn => simp [unborn, cancels]
    | started life told lives =>
        rw [told, Life.cancels_marks]
        have once := lives.once
        rcases life with ⟨run, early, late, progress⟩
        cases late with
        | none => cases early <;> simp
        | some call =>
            obtain rfl : early = none := (once rfl).1
            exact Nat.le_refl _
  report_once := by
    rw [← reports_milestones]
    cases stands with
    | waiting unborn | claimed unborn => simp [unborn, reports]
    | started life told =>
        rw [told, Life.reports_marks]
        cases life.told? <;> simp
  reported := stands.reported
  accepts_run := stands.accepts_run
  accepts_cancel call := (cancel_accepted call shared).trans stands.accepts_cancel
  refuses_cancel _ := cancel_refused
  notStarted := stands.notStarted
  moves := stands.moves
  finished := stands.finished
  waits call := by
    rw [← stands.notStarted]
    exact wait_returns call shared
  rest := stands.rest
  settles := shared.exists_rests

end

/-- Whatever calls are made to a job, and by whatever schedule they come, it comes to its
account. -/
theorem callers_account (task : Task σ α) (turns : List Turn) :
    let work := (Shared.new task).workBy turns
    Account work.1 work.2 :=
  (stands_workBy task turns).account

end Shared

end BridgeFinder.Job
