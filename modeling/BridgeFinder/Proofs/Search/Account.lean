import BridgeFinder.MethodSearch.Turn
import BridgeFinder.Network.Offline
import BridgeFinder.Proofs.Job.Rest
import BridgeFinder.Proofs.Schedule
import BridgeFinder.Proofs.Search.Source

/-!
# The account of a search with one method

Once a search with one of the four methods is accepted, its job may take turns in any
order, and it may be asked to stop at any time.  Its callback is called once, with bridges
that are confirmed and with a code that says whether a request to stop was accepted.
Whatever the network does, it shows nowhere else.  By itself the search comes to rest, and
then it is over, unless it hangs and nobody has asked it to stop.
-/

namespace BridgeFinder.MethodSearch

open BridgeFinder.Search (RequestsOnly FindsOnly Produces)

variable {π ν : Type}

/-- The pages that are requested. -/
def pages (marks : List (Mark ν)) : List String :=
  (marks.filterMap Mark.activity?).filterMap Activity.url?

/-- What callbacks are called with. -/
def deliveries (marks : List (Mark ν)) : List (Delivery ν) :=
  marks.filterMap Mark.delivery?

/-- The search hangs: only a request to stop it lets it go on. -/
def Hangs (method : MethodSearch ν) : Prop :=
  ∃ current leave, method.current = some current ∧
    current.job.stage = .executing (.stall leave) ∧ current.job.state = .running

/-- The account of a search, by what can be seen of it and by what has become of it. -/
structure Account (network : Network π) (settings : Settings) (kind : Kind) (callback : ν)
    (marks : List (Mark ν)) (method : MethodSearch ν) : Prop where
  /-- Only pages that the source of the method leads to are requested. -/
  requests : RequestsOnly network settings kind (pages marks)
  /-- The callback has been called exactly if the search is over, and then once. -/
  once : (deliveries marks).map Delivery.name = if method.isFree then [callback] else []
  /-- The bridges that are delivered are confirmed. -/
  confirmed : ∀ delivery ∈ deliveries marks,
    FindsOnly (Produces network settings kind) network.web settings.configPath delivery.results
  /-- The search counts as stopped exactly if a request to stop it was accepted. -/
  stopped : ∀ delivery ∈ deliveries marks, delivery.code = .stopped ↔ Mark.cancelled ∈ marks
  /-- Otherwise it is a success. -/
  success : ∀ delivery ∈ deliveries marks, delivery.code = .success ↔ Mark.cancelled ∉ marks
  /-- At rest the search is over, unless it hangs and has not been asked to stop. -/
  rest : method.Rests → method.isFree = true ∨ method.Hangs ∧ Mark.cancelled ∉ marks
  /-- By itself the search comes to rest. -/
  settles : ∃ turns, (∀ next ∈ turns, next.isOwn = true) ∧ (method.workBy turns).2.Rests

/-! ## What the marks of the job show -/

theorem pages_append (first second : List (Mark ν)) :
    pages (first ++ second) = pages first ++ pages second := by
  simp [pages]

theorem deliveries_append (first second : List (Mark ν)) :
    deliveries (first ++ second) = deliveries first ++ deliveries second := by
  simp [deliveries]

@[simp]
theorem pages_ofJob (marks : List (Job.Mark Activity)) :
    pages (marks.map (Mark.ofJob (ν := ν))) = (Job.signals marks).filterMap Activity.url? := by
  induction marks with
  | nil => rfl
  | cons first rest ih =>
      cases first with
      | signal activity =>
          have lead : pages [Mark.ofJob (ν := ν) (.signal activity)] =
              [activity].filterMap Activity.url? := rfl
          rw [List.map_cons, ← List.singleton_append, pages_append, ih, lead,
            ← List.filterMap_append]
          rfl
      | cancelled => exact ih

@[simp]
theorem deliveries_ofJob (marks : List (Job.Mark Activity)) :
    deliveries (marks.map (Mark.ofJob (ν := ν))) = [] := by
  simp only [deliveries, List.filterMap_map, List.filterMap_eq_nil_iff]
  intro mark _
  cases mark <;> rfl

@[simp]
theorem mem_ofJob (marks : List (Job.Mark Activity)) :
    Mark.cancelled ∈ marks.map (Mark.ofJob (ν := ν)) ↔ Job.wasCancelled marks = true := by
  simp only [List.mem_map, Job.wasCancelled, List.any_eq_true]
  apply exists_congr
  intro mark
  apply and_congr_right
  intro _
  cases mark <;> simp [Mark.ofJob, Job.Mark.isCancelled]

/-! ## Coming to rest -/

/-- What is left of the job of a search. -/
def leftover (method : MethodSearch ν) : Nat :=
  (method.current.map fun current => current.job.weight).getD 0

/-- A turn of its own changes nothing in a search, or leaves less of its job. -/
theorem leftover_turn {next : Turn} (own : next.isOwn = true) (method : MethodSearch ν) :
    turn next method = ([], method) ∨ (turn next method).2.leftover < method.leftover := by
  obtain ⟨kind, session, current⟩ := method
  cases current with
  | none => exact .inl rfl
  | some current =>
      cases next with
      | job next =>
          have another : next ≠ .request := by
            rintro rfl
            cases own
          rcases (Job.step_turn next current.job).weight another with ⟨none, same⟩ | less
          · left
            simp [turn, none, same]
          · exact .inr less
      | deliver =>
          cases reported : current.job.outcome? with
          | none =>
              left
              simp [turn, reported]
          | some outcome =>
              right
              simpa [turn, reported, leftover] using Job.weight_close_lt reported

/-- By itself, a search comes to rest. -/
theorem exists_rests (method : MethodSearch ν) :
    ∃ turns, (∀ next ∈ turns, next.isOwn = true) ∧ (method.workBy turns).2.Rests :=
  exists_play_rests (measure leftover).wf (fun _ own method => leftover_turn own method) method

/-! ## A search at work -/

/-- A search that was accepted works at its job, until it has called its callback. -/
def Works (network : Network π) (settings : Settings) (session : Session) (kind : Kind)
    (callback : ν) (marks : List (Mark ν)) (method : MethodSearch ν) : Prop :=
  ∃ job seen, method = ⟨kind, session, some ⟨job, callback⟩⟩ ∧
    Job.Follows (Search.ofKind network settings session kind) seen job ∧
    pages marks = (Job.signals seen).filterMap Activity.url? ∧
    (Mark.cancelled ∈ marks ↔ Job.wasCancelled seen = true) ∧
    if job.isFinished then
      ∃ results, FindsOnly (Produces network settings kind) network.web settings.configPath
          results ∧
        deliveries marks = [⟨callback, results, .ofCancelled (Job.wasCancelled seen)⟩]
    else deliveries marks = []

section

variable {network : Network π} {settings : Settings} {session : Session} {kind : Kind}
  {callback : ν} {marks : List (Mark ν)} {method : MethodSearch ν}

/-- What a job reports is what its task has ended with. -/
theorem findsOnly_of_outcome? {job : Job Activity (List Bridge)}
    {seen : List (Job.Mark Activity)} {outcome : Outcome (List Bridge)}
    (follows : Job.Follows (Search.ofKind network settings session kind) seen job)
    (reported : job.outcome? = some outcome) :
    FindsOnly (Produces network settings kind) network.web settings.configPath
      outcome.output := by
  rcases follows.course with ⟨observed, rest, course, -, leaves⟩
  rcases job with ⟨state, token, stage⟩
  cases stage with
  | reporting output =>
      cases reported
      exact (Search.ofKind_of_course course).2 _ leaves
  | ready | claimed | executing | returned | finished => cases reported

/-- The turns of the job keep a search at work. -/
theorem Works.job (works : Works network settings session kind callback marks method)
    (next : Job.Turn) :
    Works network settings session kind callback (marks ++ (turn (.job next) method).1)
      (turn (.job next) method).2 := by
  rcases works with ⟨job, seen, rfl, follows, same, cancelled, delivered⟩
  refine ⟨(job.turn next).2, seen ++ (job.turn next).1, rfl, follows.turn next, ?_, ?_, ?_⟩
  · simp [turn, pages_append, same, Job.signals_append]
  · simp [turn, cancelled]
  · simp only [turn, deliveries_append, deliveries_ofJob, List.append_nil,
      (Job.step_turn next job).isFinished]
    split
    · rename_i finished
      have decided : job.stage.isDecided = true := by
        rcases job with ⟨state, token, stage⟩
        cases stage <;> simp_all [Job.isFinished, Job.Stage.isDecided]
      simpa [follows.silent decided (Job.step_turn next job), finished] using delivered
    · simpa [*] using delivered

/-- So does calling the callback. -/
theorem Works.deliver (works : Works network settings session kind callback marks method) :
    Works network settings session kind callback (marks ++ (turn .deliver method).1)
      (turn .deliver method).2 := by
  rcases works with ⟨job, seen, rfl, follows, same, cancelled, delivered⟩
  cases reported : job.outcome? with
  | none =>
      refine ⟨job, seen, ?_, follows, ?_, ?_, ?_⟩
      · simp [turn, reported]
      · simpa [turn, reported] using same
      · simpa [turn, reported] using cancelled
      · simpa [turn, reported] using delivered
  | some outcome =>
      have found := findsOnly_of_outcome? follows reported
      have code := follows.outcome outcome reported
      have fresh : job.isFinished = false ∧ job.close.isFinished = true := by
        rcases job with ⟨state, token, stage⟩
        cases stage <;> simp_all [Job.outcome?, Job.isFinished, Job.close]
      refine ⟨job.close, seen, ?_, follows.close, ?_, ?_, ?_⟩
      · simp [turn, reported]
      · simp only [turn, reported, pages_append, same]
        exact List.append_nil _
      · simpa [turn, reported] using cancelled
      · simp only [fresh, Bool.false_eq_true, if_false] at delivered
        simp only [fresh, if_true]
        apply Exists.intro outcome.output
        apply And.intro found
        simp only [turn, reported, deliveries_append, delivered, ← code]
        rfl

/-- A search at rest is over, or it hangs and has not been asked to stop. -/
theorem Works.rest (works : Works network settings session kind callback marks method)
    (rests : method.Rests) : method.isFree = true ∨ method.Hangs ∧ Mark.cancelled ∉ marks := by
  rcases works with ⟨job, seen, rfl, follows, same, cancelled, delivered⟩
  have idle (next : Job.Turn) (own : next ≠ .request) : (job.turn next).2 = job := by
    have still := congrArg (fun step => step.2.current.map Current.job) (rests (.job next) (by
      cases next with
      | request => exact absurd rfl own
      | fire | go | release | decide => rfl))
    simpa [MethodSearch.turn] using still
  rcases follows.cases_of_idle idle with ⟨outcome, reported⟩ | finished | ⟨⟨leave, stage⟩, going, -⟩
  · have still := congrArg Prod.fst (rests .deliver rfl)
    simp [MethodSearch.turn, reported] at still
  · exact .inl finished
  · right
    constructor
    · exact ⟨⟨job, callback⟩, leave, rfl, stage, going⟩
    · rw [cancelled, (follows.of_running going).1]
      exact Bool.false_ne_true

/-- What a search at work comes to. -/
theorem Works.account (works : Works network settings session kind callback marks method) :
    Account network settings kind callback marks method := by
  have atRest := works.rest
  have settles := exists_rests method
  rcases works with ⟨job, seen, rfl, follows, same, cancelled, delivered⟩
  rcases follows.course with ⟨observed, rest, course, signals, -⟩
  have requests : RequestsOnly network settings kind (pages marks) := by
    rw [same, ← signals]
    exact (Search.ofKind_of_course course).1
  cases finished : job.isFinished with
  | false =>
      simp only [finished, Bool.false_eq_true, if_false] at delivered
      refine ⟨requests, ?_, ?_, ?_, ?_, atRest, settles⟩
      · simp [delivered, isFree, finished]
      all_goals simp [delivered]
  | true =>
      simp only [finished, if_true] at delivered
      rcases delivered with ⟨results, found, delivered⟩
      refine ⟨requests, ?_, ?_, ?_, ?_, atRest, settles⟩
      · simp [delivered, isFree, finished]
      · simpa [delivered] using found
      · cases was : Job.wasCancelled seen <;>
          simp [delivered, cancelled, was, ReturnCode.ofCancelled]
      · cases was : Job.wasCancelled seen <;>
          simp [delivered, cancelled, was, ReturnCode.ofCancelled]

/-- Whatever its turn is, a search stays at work. -/
theorem Works.turn (works : Works network settings session kind callback marks method)
    (next : Turn) :
    Works network settings session kind callback (marks ++ (MethodSearch.turn next method).1)
      (MethodSearch.turn next method).2 := by
  cases next with
  | job next => exact works.job next
  | deliver => exact works.deliver

end

/-- By whatever schedule a search that was accepted works, it comes to its account. -/
theorem search_account (network : Network π) (settings : Settings) (method : MethodSearch ν)
    (free : method.isFree = true) (callback : ν) (turns : List Turn) :
    let begun := method.search (Search.ofKind network settings method.session method.kind) callback
    let work := begun.2.1.workBy turns
    Account network settings method.kind callback (begun.1.map .activity ++ work.1) work.2 := by
  have start : Works network settings method.session method.kind callback
      [.activity (method.session.methodStarted method.kind)]
      ⟨method.kind, method.session, some
        ⟨(Job.new (Search.ofKind network settings method.session method.kind)).run.1, callback⟩⟩ := by
    refine ⟨_, [], rfl, .run _, rfl, ?_, rfl⟩
    simp [Job.wasCancelled]
  have works := play_preserves (fun _ _ next works => works.turn next) turns start
  simpa only [search, free, if_true, workBy, List.map] using works.account

/-- Where the cloud cannot be reached, a search that asks it is a success without a bridge. -/
theorem search_account_unreachable :
    let network := Network.offline (.ok []) {}
    let method : MethodSearch Unit := { kind := .nupnp, session := default }
    let turns : List Turn := List.replicate 6 (.job (.go 0)) ++ [.job .decide, .deliver]
    let begun := method.search (Search.ofKind network {} method.session method.kind) ()
    let work := begun.2.1.workBy turns
    method.isFree = true ∧ deliveries work.1 = [⟨(), [], .success⟩] ∧
      Account network {} method.kind () (begun.1.map .activity ++ work.1) work.2 := by
  intro network method turns begun work
  exact ⟨rfl, rfl, search_account network {} method rfl () turns⟩

end BridgeFinder.MethodSearch
