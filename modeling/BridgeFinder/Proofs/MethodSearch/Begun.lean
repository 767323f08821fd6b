import BridgeFinder.MethodSearch.Live
import BridgeFinder.MethodSearch.Turn
import BridgeFinder.Proofs.Job.Follow
import BridgeFinder.Proofs.Schedule
import Mathlib.Data.List.Nodup

/-!
# How a method stands that is searched with

Of the searches that were accepted, all but the last one are over.  What can be seen of each of
them is what its job shows, between the report of its start and what follows from its outcome.
Calls that were rejected show nothing else, and nothing becomes of the tasks that were made for
them.
-/

namespace BridgeFinder.MethodSearch

open BridgeFinder.Job (Follows wasCancelled)
open BridgeFinder.Task (Course)

namespace Report

/-- The outcome that is reported. -/
def outcome? : Report → Option (Outcome (List Bridge))
  | awaited => none
  | announced outcome | called outcome | returned outcome => some outcome

/-- The callback has returned. -/
def isReturned : Report → Bool
  | returned _ => true
  | awaited | announced _ | called _ => false

/-- What can be seen of the report on a search. -/
def marks (kind : Kind) (session : Session) (number : Nat) : Report → List Live.Mark
  | awaited => []
  | announced outcome =>
      [.activity number (session.methodFinished kind (.ofCancelled outcome.cancelled))]
  | called outcome =>
      [.activity number (session.methodFinished kind (.ofCancelled outcome.cancelled)),
        .called ⟨number, outcome.output, .ofCancelled outcome.cancelled⟩]
  | returned outcome =>
      [.activity number (session.methodFinished kind (.ofCancelled outcome.cancelled)),
        .called ⟨number, outcome.output, .ofCancelled outcome.cancelled⟩, .returned number]

/-- How far a job is when its outcome has been reported so far. -/
def IsAt {σ : Type} (stage : Job.Stage σ (List Bridge)) : Report → Prop
  | awaited => stage ≠ .finished
  | announced outcome | called outcome => stage = .reporting outcome
  | returned _ => stage = .finished

end Report

namespace Live

/-- What can be seen of one search, once it has been accepted. -/
def trace (number : Nat) (marks : List Mark) : List Mark :=
  marks.filter fun mark => mark.number? = some number

/-- The numbers of the calls that tasks were made for. -/
def makings (marks : List Mark) : List Nat :=
  marks.filterMap Mark.made?

/-- The calls to search, with what they return. -/
def calls (marks : List Mark) : List (Nat × Bool) :=
  marks.filterMap Mark.asked?

/-- The numbers of the searches that were accepted. -/
def accepted (marks : List Mark) : List Nat :=
  ((calls marks).filter Prod.snd).map Prod.fst

/-- The account of one search that was accepted, by what its job has shown and how far its
report has come. -/
structure Unfolds (kind : Kind) (session : Session) (task : Task Activity (List Bridge))
    (number : Nat) (marks : List Mark) (seen : List (Job.Mark Activity)) (report : Report) :
    Prop where
  /-- Its start is reported, its job works, and the report on its outcome follows. -/
  trace : trace number marks =
    .activity number (session.methodStarted kind) :: seen.map (.ofJob number) ++
      report.marks kind session number
  /-- The job does what its task does on a course, and what is reported is the output that the
  course ends with. -/
  course : ∃ observed token rest, Course ⟨false, task⟩ observed ⟨token, rest⟩ ∧
    Task.signals observed = Job.signals seen ∧
    ∀ outcome, report.outcome? = some outcome → rest = .done outcome.output
  /-- The search counts as cancelled exactly if a request to stop it was accepted. -/
  cancelled : ∀ outcome, report.outcome? = some outcome →
    outcome.cancelled = wasCancelled seen

/-- A search that was accepted has come as far as can be seen. -/
def Works (kind : Kind) (session : Session) (task : Task Activity (List Bridge)) (number : Nat)
    (marks : List Mark) (job : Job Activity (List Bridge)) (report : Report) : Prop :=
  ∃ seen, Follows task seen job ∧ Unfolds kind session task number marks seen report ∧
    report.IsAt job.stage

/-- How a method stands that is searched with. -/
structure Stands (kind : Kind) (session : Session) (make : Nat → Task Activity (List Bridge))
    (marks : List Mark) (live : Live) : Prop where
  kind_eq : live.kind = kind
  session_eq : live.session = session
  make_eq : live.make = make
  /-- One task is made for every call. -/
  makings_eq : makings marks = List.range live.made
  calls_eq : (calls marks).map Prod.fst = List.range live.made
  accepted_eq : accepted marks = (live.begun.map Begun.number).reverse
  works : ∀ begun ∈ live.begun,
    Works kind session (make begun.number) begun.number marks begun.current.job begun.report
  /-- All searches but the last one are over. -/
  order : live.begun.Pairwise fun newer older =>
    older.number < newer.number ∧ older.report.isReturned = true
  below : ∀ begun ∈ live.begun, begun.number < live.made
  /-- Nothing can be seen of a search that was not accepted. -/
  others : ∀ number, (∀ begun ∈ live.begun, begun.number ≠ number) → trace number marks = []

variable {kind : Kind} {session : Session} {make : Nat → Task Activity (List Bridge)}
  {task : Task Activity (List Bridge)} {job : Job Activity (List Bridge)} {report : Report}
  {outcome : Outcome (List Bridge)} {marks more : List Mark} {live : Live} {begun next : Begun}
  {place number : Nat}

/-! ## Histories -/

theorem trace_append (number : Nat) (first second : List Mark) :
    trace number (first ++ second) = trace number first ++ trace number second :=
  List.filter_append ..

theorem makings_append (first second : List Mark) :
    makings (first ++ second) = makings first ++ makings second :=
  List.filterMap_append

theorem calls_append (first second : List Mark) :
    calls (first ++ second) = calls first ++ calls second :=
  List.filterMap_append

theorem accepted_append (first second : List Mark) :
    accepted (first ++ second) = accepted first ++ accepted second := by
  simp [accepted, calls_append]

/-- What is about one search belongs to its trace. -/
theorem trace_eq_self (about : ∀ mark ∈ more, mark.number? = some number) :
    trace number more = more := by
  apply List.filter_eq_self.mpr
  simpa using about

theorem trace_singleton {mark : Mark} (about : mark.number? = some number) :
    trace number [mark] = [mark] :=
  trace_eq_self (by simpa using about)

/-- What is about one search can be seen of no other. -/
theorem trace_eq_nil {other : Nat} (about : ∀ mark ∈ more, mark.number? = some number)
    (another : other ≠ number) : trace other more = [] := by
  apply List.filter_eq_nil_iff.mpr
  intro mark member
  simp [about mark member, another.symm]

/-- What is about searches that were accepted is no call. -/
theorem calls_eq_nil (about : ∀ mark ∈ more, mark.number? = some number) : calls more = [] := by
  apply List.filterMap_eq_nil_iff.mpr
  intro mark member
  have known := about mark member
  cases mark with
  | asked => cases known
  | made | activity | cancelled | called | returned => rfl

theorem accepted_eq_nil (about : ∀ mark ∈ more, mark.number? = some number) :
    accepted more = [] := by
  simp [accepted, calls_eq_nil about]

theorem makings_eq_nil (about : ∀ mark ∈ more, mark.number? = some number) :
    makings more = [] := by
  apply List.filterMap_eq_nil_iff.mpr
  intro mark member
  have known := about mark member
  cases mark with
  | made => cases known
  | asked | activity | cancelled | called | returned => rfl

theorem number?_ofJob (number : Nat) (mark : Job.Mark Activity) :
    (Mark.ofJob number mark).number? = some number := by
  cases mark <;> rfl

/-! ## One search -/

/-- What can be seen of another search leaves a search where it is. -/
theorem Works.frame (works : Works kind session task number marks job report)
    (unseen : trace number more = []) :
    Works kind session task number (marks ++ more) job report := by
  rcases works with ⟨seen, follows, unfolds, isAt⟩
  have same : trace number (marks ++ more) = trace number marks := by
    rw [trace_append, unseen, List.append_nil]
  exact ⟨seen, follows, ⟨same.trans unfolds.trace, unfolds.course, unfolds.cancelled⟩, isAt⟩

/-- A search that has just been accepted. -/
theorem Works.begin (task : Task Activity (List Bridge)) (unseen : trace number marks = []) :
    Works kind session task number
      (marks ++ [.made number, .asked number true,
        .activity number (session.methodStarted kind)])
      (Job.new task).run.1 .awaited := by
  refine ⟨[], .run _, ⟨?_, ?_, nofun⟩, nofun⟩
  · rw [trace_append, unseen]
    simp [trace, Mark.number?, Report.marks]
  · exact ⟨[], _, _, .rest _, rfl, nofun⟩

/-- Once it is decided whether a job was cancelled, its turns leave it where it is. -/
theorem stage_of_isDecided {σ α : Type} {job last : Job σ α} {turn : Job.Turn}
    {row : List (Job.Mark σ)} (decided : job.stage.isDecided = true)
    (step : Job.Step job turn row last) : last.stage = job.stage := by
  cases step with
  | idle | request | fire => rfl
  | move executing | ended executing | release executing =>
      rw [executing] at decided
      cases decided
  | complete returned | abort returned =>
      rw [returned] at decided
      cases decided

/-- When the report on a job has begun, it is decided whether the job was cancelled. -/
theorem isDecided_of_isAt {σ : Type} {stage : Job.Stage σ (List Bridge)}
    (isAt : report.IsAt stage) : report = .awaited ∨ stage.isDecided = true := by
  cases report with
  | awaited => exact .inl rfl
  | announced outcome | called outcome | returned outcome =>
      right
      rw [show stage = _ from isAt]
      rfl

theorem isFinished_iff {σ α : Type} {job : Job σ α} :
    job.isFinished = true ↔ job.stage = .finished := by
  rcases job with ⟨state, token, stage⟩
  cases stage <;> simp [Job.isFinished]

/-- The job of a search goes on its way. -/
theorem Works.turn (works : Works kind session task number marks job report) (turn : Job.Turn) :
    Works kind session task number (marks ++ (job.turn turn).1.map (.ofJob number))
      (job.turn turn).2 report := by
  rcases works with ⟨seen, follows, unfolds, isAt⟩
  have step := Job.step_turn turn job
  have followed := follows.turn turn
  refine ⟨seen ++ (job.turn turn).1, followed, ?_⟩
  rcases isDecided_of_isAt isAt with rfl | decided
  · rcases followed.course with ⟨observed, rest, course, same, -⟩
    have about : ∀ mark ∈ (job.turn turn).1.map (Mark.ofJob number),
        mark.number? = some number := by
      intro mark member
      rcases List.mem_map.mp member with ⟨shown, -, rfl⟩
      exact number?_ofJob number shown
    constructor
    · constructor
      · rw [trace_append, trace_eq_self about, unfolds.trace]
        simp [Report.marks]
      · exact ⟨observed, _, rest, course, same, nofun⟩
      · nofun
    · intro finished
      have before := step.isFinished
      rw [isFinished_iff.mpr finished] at before
      exact isAt (isFinished_iff.mp before.symm)
  · constructor
    · simp only [follows.silent decided step, List.map_nil, List.append_nil]
      exact unfolds
    · rw [stage_of_isDecided decided step]
      exact isAt

/-- The outcome that a search reports is that of its job. -/
theorem Works.announce (works : Works kind session task number marks job .awaited)
    (decided : job.outcome? = some outcome) :
    Works kind session task number
      (marks ++ [.activity number
        (session.methodFinished kind (.ofCancelled outcome.cancelled))])
      job (.announced outcome) := by
  rcases works with ⟨seen, follows, unfolds, -⟩
  have stage : job.stage = .reporting outcome := by
    rcases job with ⟨state, token, stage⟩
    cases stage with
    | reporting =>
        cases decided
        rfl
    | ready | claimed | executing | returned | finished => cases decided
  rcases follows.course with ⟨observed, rest, course, same, leaves⟩
  rw [stage] at leaves
  refine ⟨seen, follows, ⟨?_, ⟨observed, _, rest, course, same, ?_⟩, ?_⟩, stage⟩
  · rw [trace_append, trace_singleton rfl, unfolds.trace]
    simp [Report.marks]
  · rintro _ ⟨⟩
    exact leaves
  · rintro _ ⟨⟩
    exact follows.outcome outcome decided

/-- Its callback is called with that outcome. -/
theorem Works.call (works : Works kind session task number marks job (.announced outcome)) :
    Works kind session task number
      (marks ++ [.called ⟨number, outcome.output, .ofCancelled outcome.cancelled⟩])
      job (.called outcome) := by
  rcases works with ⟨seen, follows, unfolds, isAt⟩
  refine ⟨seen, follows, ⟨?_, unfolds.course, unfolds.cancelled⟩, isAt⟩
  rw [trace_append, trace_singleton rfl, unfolds.trace]
  simp [Report.marks]

/-- When its callback has returned, its job is finished. -/
theorem Works.back (works : Works kind session task number marks job (.called outcome)) :
    Works kind session task number (marks ++ [.returned number]) job.close
      (.returned outcome) := by
  rcases works with ⟨seen, follows, unfolds, isAt⟩
  have stage : job.stage = .reporting outcome := isAt
  refine ⟨seen, follows.close, ⟨?_, unfolds.course, unfolds.cancelled⟩, ?_⟩
  · rw [trace_append, trace_singleton rfl, unfolds.trace]
    simp [Report.marks]
  · apply Job.stage_close
    rw [stage]
    rfl

/-! ## All searches -/

/-- What changes in one place keeps the order of a list, if it is to the others as it was. -/
theorem pairwise_set {α : Type} {relation : α → α → Prop} {members : List α} {place : Nat}
    {old new : α} (pairwise : members.Pairwise relation) (found : members[place]? = some old)
    (before : ∀ other, relation other old → relation other new)
    (after : ∀ other, relation old other → relation new other) :
    (members.set place new).Pairwise relation := by
  induction members generalizing place with
  | nil => exact List.Pairwise.nil
  | cons first rest ih =>
      rcases List.pairwise_cons.mp pairwise with ⟨head, tail⟩
      cases place with
      | zero =>
          cases found
          exact List.pairwise_cons.mpr ⟨fun other member => after other (head other member), tail⟩
      | succ place =>
          have found : rest[place]? = some old := found
          apply List.pairwise_cons.mpr
          constructor
          · intro other member
            rcases List.mem_or_eq_of_mem_set member with there | rfl
            · exact head other there
            · exact before first (head old (List.mem_of_getElem? found))
          · exact ih tail found

theorem map_set_of_eq {α β : Type} {key : α → β} {members : List α} {place : Nat} {old new : α}
    (found : members[place]? = some old) (same : key new = key old) :
    (members.set place new).map key = members.map key := by
  rw [List.map_set, same]
  apply List.ext_getElem?
  intro other
  rw [List.getElem?_set]
  split
  · rename_i here
    subst here
    rcases List.getElem?_eq_some_iff.mp found with ⟨bound, rfl⟩
    simp [bound]
  · rfl

/-- Where the numbers go down, a search is told by its number. -/
theorem eq_of_number {members : List Begun} {relation : Begun → Begun → Prop}
    (order : members.Pairwise fun newer older => older.number < newer.number ∧ relation newer older)
    {first second : Begun} (one : first ∈ members) (other : second ∈ members)
    (same : first.number = second.number) : first = second := by
  have distinct : (members.map Begun.number).Nodup :=
    List.pairwise_map.mpr (order.imp fun below => (Nat.ne_of_lt below.1).symm)
  exact List.inj_on_of_nodup_map distinct one other same

/-- A search that was accepted goes on, and the others stay where they are. -/
theorem Stands.change (stands : Stands kind session make marks live)
    (found : live.begun[place]? = some begun) (same : next.number = begun.number)
    (returned : begun.report.isReturned = true → next.report.isReturned = true)
    (about : ∀ mark ∈ more, mark.number? = some begun.number)
    (works : Works kind session (make begun.number) begun.number (marks ++ more)
      next.current.job next.report) :
    Stands kind session make (marks ++ more)
      { live with begun := live.begun.set place next } := by
  have numbers : (live.begun.set place next).map Begun.number = live.begun.map Begun.number :=
    map_set_of_eq found same
  have order : (live.begun.set place next).Pairwise _ :=
    pairwise_set stands.order found
      (fun other before => ⟨same ▸ before.1, returned before.2⟩)
      (fun other after => ⟨same ▸ after.1, after.2⟩)
  have there : next ∈ live.begun.set place next :=
    List.mem_set (List.getElem?_eq_some_iff.mp found).1 next
  constructor
  · exact stands.kind_eq
  · exact stands.session_eq
  · exact stands.make_eq
  · rw [makings_append, makings_eq_nil about, List.append_nil]
    exact stands.makings_eq
  · rw [calls_append, calls_eq_nil about, List.append_nil]
    exact stands.calls_eq
  · rw [accepted_append, accepted_eq_nil about, List.append_nil, numbers]
    exact stands.accepted_eq
  · intro other member
    by_cases here : other.number = begun.number
    · obtain rfl := eq_of_number order member there (here.trans same.symm)
      rw [same]
      exact works
    · rcases List.mem_or_eq_of_mem_set member with before | rfl
      · exact (stands.works other before).frame (trace_eq_nil about here)
      · exact absurd same here
  · exact order
  · intro other member
    have among : other.number ∈ live.begun.map Begun.number := by
      rw [← numbers]
      exact List.mem_map_of_mem member
    rcases List.mem_map.mp among with ⟨old, before, equal⟩
    rw [← equal]
    exact stands.below old before
  · intro number unknown
    have unknown' : ∀ old ∈ live.begun, old.number ≠ number := by
      intro old before
      have among : old.number ∈ (live.begun.set place next).map Begun.number := by
        rw [numbers]
        exact List.mem_map_of_mem before
      rcases List.mem_map.mp among with ⟨new, after, equal⟩
      rw [← equal]
      exact unknown new after
    rw [trace_append, stands.others number unknown', List.nil_append]
    exact trace_eq_nil about (unknown' begun (List.mem_of_getElem? found)).symm

/-- What is seen of a call that is rejected, or of nobody, leaves the searches where they are. -/
theorem Stands.quiet (stands : Stands kind session make marks live) :
    Stands kind session make (marks ++ []) live := by
  rw [List.append_nil]
  exact stands

/-! ## Calls to search -/

/-- A call that finds a search under way is rejected, and nothing but its task comes of it. -/
theorem search_of_not_isFree (busy : live.method.isFree = false) :
    live.search =
      ([.made live.made, .asked live.made false], { live with made := live.made + 1 }) := by
  simp [Live.search, MethodSearch.search, busy]

/-- A call that finds none under way is accepted. -/
theorem search_of_isFree (free : live.method.isFree = true) :
    live.search =
      ([.made live.made, .asked live.made true,
          .activity live.made (live.session.methodStarted live.kind)],
        { live with
          made := live.made + 1
          begun :=
            ⟨⟨(Job.new (live.make live.made)).run.1, live.made⟩, .awaited⟩ :: live.begun }) := by
  simp only [Live.search, MethodSearch.search, free, if_true]
  rfl

theorem Stands.reject (stands : Stands kind session make marks live) :
    Stands kind session make (marks ++ [.made live.made, .asked live.made false])
      { live with made := live.made + 1 } := by
  constructor
  · exact stands.kind_eq
  · exact stands.session_eq
  · exact stands.make_eq
  · rw [makings_append, stands.makings_eq, List.range_succ]
    rfl
  · rw [calls_append, List.map_append, stands.calls_eq, List.range_succ]
    rfl
  · rw [accepted_append, stands.accepted_eq]
    exact List.append_nil _
  · intro begun member
    exact (stands.works begun member).frame rfl
  · exact stands.order
  · intro begun member
    exact Nat.lt_succ_of_lt (stands.below begun member)
  · intro number unknown
    rw [trace_append, stands.others number unknown]
    rfl

/-- A job that is finished has reported its outcome, and its callback has returned. -/
theorem Works.isReturned (works : Works kind session task number marks job report)
    (finished : job.isFinished = true) : report.isReturned = true := by
  rcases works with ⟨seen, -, -, isAt⟩
  have stage := isFinished_iff.mp finished
  cases report with
  | returned => rfl
  | awaited => exact absurd stage isAt
  | announced outcome | called outcome =>
      rw [show job.stage = _ from isAt] at stage
      cases stage

theorem Stands.accept (stands : Stands kind session make marks live)
    (free : live.method.isFree = true) :
    Stands kind session make
      (marks ++ [.made live.made, .asked live.made true,
        .activity live.made (live.session.methodStarted live.kind)])
      { live with
        made := live.made + 1
        begun :=
          ⟨⟨(Job.new (live.make live.made)).run.1, live.made⟩, .awaited⟩ :: live.begun } := by
  have fresh : trace live.made marks = [] := by
    apply stands.others
    intro begun member
    exact Nat.ne_of_lt (stands.below begun member)
  constructor
  · exact stands.kind_eq
  · exact stands.session_eq
  · exact stands.make_eq
  · rw [makings_append, stands.makings_eq, List.range_succ]
    rfl
  · rw [calls_append, List.map_append, stands.calls_eq, List.range_succ]
    rfl
  · rw [accepted_append, stands.accepted_eq, List.map_cons, List.reverse_cons]
    rfl
  · intro begun member
    rcases List.mem_cons.mp member with rfl | before
    · rw [stands.kind_eq, stands.session_eq, stands.make_eq]
      exact Works.begin _ fresh
    · have other := Nat.ne_of_lt (stands.below begun before)
      apply (stands.works begun before).frame
      simp [trace, Mark.number?, other.symm]
  · apply List.pairwise_cons.mpr
    constructor
    · intro older before
      constructor
      · exact stands.below older before
      · cases list : live.begun with
        | nil =>
            rw [list] at before
            cases before
        | cons last rest =>
            rw [list] at before
            have order := stands.order
            rw [list] at order
            rcases List.mem_cons.mp before with rfl | earlier
            · have works := stands.works older (list ▸ List.mem_cons_self)
              apply works.isReturned
              simpa [method, isFree, list] using free
            · exact ((List.pairwise_cons.mp order).1 older earlier).2
    · exact stands.order
  · intro begun member
    rcases List.mem_cons.mp member with rfl | before
    · exact Nat.lt_succ_self _
    · exact Nat.lt_succ_of_lt (stands.below begun before)
  · intro number unknown
    have another : live.made ≠ number := unknown _ List.mem_cons_self
    have before : ∀ begun ∈ live.begun, begun.number ≠ number :=
      fun begun member => unknown begun (List.mem_cons_of_mem _ member)
    rw [trace_append, stands.others number before]
    simp [trace, Mark.number?, another]

theorem Stands.search (stands : Stands kind session make marks live) :
    Stands kind session make (marks ++ live.search.1) live.search.2 := by
  cases free : live.method.isFree with
  | false =>
      rw [search_of_not_isFree free]
      exact stands.reject
  | true =>
      rw [search_of_isFree free]
      exact stands.accept free

/-! ## What every turn preserves -/

theorem Stands.work (stands : Stands kind session make marks live) (place : Nat)
    (turn : Job.Turn) :
    Stands kind session make (marks ++ (live.work place turn).1) (live.work place turn).2 := by
  cases found : live.begun[place]? with
  | none =>
      simp only [Live.work, found]
      exact stands.quiet
  | some begun =>
      have works := stands.works begun (List.mem_of_getElem? found)
      simp only [Live.work, found]
      apply stands.change found
      · rfl
      · exact id
      · intro mark member
        rcases List.mem_map.mp member with ⟨shown, -, rfl⟩
        exact number?_ofJob begun.number shown
      · exact works.turn turn

theorem Stands.announce (stands : Stands kind session make marks live) (place : Nat) :
    Stands kind session make (marks ++ (live.announce place).1) (live.announce place).2 := by
  cases found : live.begun[place]? with
  | none =>
      simp only [Live.announce, found]
      exact stands.quiet
  | some begun =>
      have works := stands.works begun (List.mem_of_getElem? found)
      cases report : begun.report with
      | announced | called | returned =>
          simp only [Live.announce, found, report]
          exact stands.quiet
      | awaited =>
          cases decided : begun.current.job.outcome? with
          | none =>
              simp only [Live.announce, found, report, decided]
              exact stands.quiet
          | some outcome =>
              rw [report] at works
              simp only [Live.announce, found, report, decided]
              apply stands.change found
              · rfl
              · rw [report]
                exact nofun
              · simp [Mark.number?]
              · rw [stands.kind_eq, stands.session_eq]
                exact works.announce decided

theorem Stands.call (stands : Stands kind session make marks live) (place : Nat) :
    Stands kind session make (marks ++ (live.call place).1) (live.call place).2 := by
  cases found : live.begun[place]? with
  | none =>
      simp only [Live.call, found]
      exact stands.quiet
  | some begun =>
      have works := stands.works begun (List.mem_of_getElem? found)
      cases report : begun.report with
      | awaited | called | returned =>
          simp only [Live.call, found, report]
          exact stands.quiet
      | announced outcome =>
          rw [report] at works
          simp only [Live.call, found, report]
          apply stands.change found
          · rfl
          · rw [report]
            exact nofun
          · simp [Mark.number?]
          · exact works.call

theorem Stands.back (stands : Stands kind session make marks live) (place : Nat) :
    Stands kind session make (marks ++ (live.back place).1) (live.back place).2 := by
  cases found : live.begun[place]? with
  | none =>
      simp only [Live.back, found]
      exact stands.quiet
  | some begun =>
      have works := stands.works begun (List.mem_of_getElem? found)
      cases report : begun.report with
      | awaited | announced | returned =>
          simp only [Live.back, found, report]
          exact stands.quiet
      | called outcome =>
          rw [report] at works
          simp only [Live.back, found, report]
          apply stands.change found
          · rfl
          · exact fun _ => rfl
          · simp [Mark.number?]
          · exact works.back

theorem Stands.turn (stands : Stands kind session make marks live) (next : Turn) :
    Stands kind session make (marks ++ (live.turn next).1) (live.turn next).2 := by
  cases next with
  | search => exact stands.search
  | job place turn => exact stands.work place turn
  | announce place => exact stands.announce place
  | call place => exact stands.call place
  | back place => exact stands.back place

theorem Stands.fresh (kind : Kind) (session : Session)
    (make : Nat → Task Activity (List Bridge)) :
    Stands kind session make [] { kind, session, make } where
  kind_eq := rfl
  session_eq := rfl
  make_eq := rfl
  makings_eq := rfl
  calls_eq := rfl
  accepted_eq := rfl
  works := nofun
  order := List.Pairwise.nil
  below := nofun
  others _ _ := rfl

/-- After every schedule, all searches but the last one are over. -/
theorem stands_workBy (kind : Kind) (session : Session)
    (make : Nat → Task Activity (List Bridge)) (turns : List Turn) :
    Stands kind session make (Live.workBy turns { kind, session, make }).1
      (Live.workBy turns { kind, session, make }).2 :=
  play_preserves (fun _ _ next stands => stands.turn next) turns (Stands.fresh kind session make)

/-! ## The method itself -/

/-- A call to search is the one of the method itself. -/
theorem method_search (live : Live) :
    (live.turn .search).2.method = (live.method.search (live.make live.made) live.made).2.1 := by
  cases free : live.method.isFree with
  | false =>
      rw [Live.turn, search_of_not_isFree free]
      simp only [MethodSearch.search, free]
      rfl
  | true =>
      rw [Live.turn, search_of_isFree free]
      simp only [MethodSearch.search, free]
      rfl

/-- Both sections of a call to cancel are the call of the method that nothing comes between. -/
theorem method_cancel {live : Live} (searching : live.method.isSearching = true) :
    (live.workBy [.job 0 .request, .job 0 .fire]).2.method = live.method.cancel.1 := by
  rcases live with ⟨kind, session, make, made, begun⟩
  cases begun with
  | nil => cases searching
  | cons last rest =>
      rcases last with ⟨⟨⟨state, token, stage⟩, number⟩, report⟩
      obtain rfl : state = .running := by
        simpa [method, isSearching, Job.isRunning] using searching
      rfl

/-- Reporting the outcome of the last search delivers it. -/
theorem method_deliver (live : Live)
    (awaited : ∀ last, live.begun.head? = some last → last.report = .awaited) :
    (live.workBy [.announce 0, .call 0, .back 0]).2.method =
      (live.method.turn .deliver).2 := by
  rcases live with ⟨kind, session, make, made, begun⟩
  cases begun with
  | nil => rfl
  | cons last rest =>
      rcases last with ⟨⟨⟨state, token, stage⟩, number⟩, report⟩
      obtain rfl : report = .awaited := awaited _ rfl
      cases stage <;> rfl

end Live

end BridgeFinder.MethodSearch
