import BridgeFinder.Proofs.Discovery.Ledger
import BridgeFinder.Proofs.Discovery.Search
import BridgeFinder.Proofs.Job.Follow
import BridgeFinder.Proofs.Schedule
import Mathlib.Data.List.Perm.Basic

/-!
# How a discovery stands

Whatever turns a discovery takes, the slot is taken exactly as long as the job of the last
search that was accepted has been started and its outcome has not been taken.  Every turn
enters into the ledger what it answers.
-/

namespace BridgeFinder.Discovery

open BridgeFinder.Job (Follows wasCancelled)

/-- The calls that are due: those that are posted, and those that are being reported. -/
def Live.due (live : Live) : List Call :=
  live.discovery.dispatcher.waiting ++
    (live.finishing.map Finishing.reporter).filterMap Reporter.call?

/-- What the job of a discovery is engaged in. -/
inductive Engaged (marks : List Mark) (live : Live) : Option Ask → Prop where
  /-- No search has been accepted yet. -/
  | idle (job : live.discovery.job = none) (accepted : live.discovery.accepted = 0)
      (taken : live.taken = 0) : Engaged marks live none
  /-- The job works at the search that stands. -/
  | standing {job : Job Activity (List Bridge × Runner)} {seen : List (Job.Mark Activity)}
      {methods : List Method} (callback : Callback) (job_eq : live.discovery.job = some job)
      (follows : Follows (Runner.ofMethods methods).execute seen job)
      (cancelled : .cancelled live.discovery.accepted ∈ marks ↔ wasCancelled seen = true)
      (going : job.isFinished = false) (number : live.discovery.accepted = live.taken + 1) :
      Engaged marks live (some ⟨callback, .accepted live.discovery.accepted methods⟩)
  /-- The outcome of the job has been taken; the job is over when it has been posted. -/
  | answered {job : Job Activity (List Bridge × Runner)} {seen : List (Job.Mark Activity)}
      {methods : List Method} (job_eq : live.discovery.job = some job)
      (follows : Follows (Runner.ofMethods methods).execute seen job)
      (decided : job.stage.isDecided = true)
      (posted : job.isFinished = true ∨
        live.discovery.accepted ∈ live.finishing.map Finishing.number)
      (number : live.discovery.accepted = live.taken) : Engaged marks live none

/-- A discovery stands as its history says. -/
structure Stands (marks : List Mark) (live : Live) (settled : List (Ask × Call))
    (standing : Option Ask) : Prop where
  ledger : Ledger marks live.due live.taken settled standing
  engaged : Engaged marks live standing
  parked : live.discovery.parked = standing.map Ask.callback
  numbers : (asks marks).filterMap Ask.number? = List.range' 1 live.discovery.accepted
  cancelled : ∀ number, .cancelled number ∈ marks → number ≤ live.discovery.accepted
  finishing : ∀ number ∈ live.finishing.map Finishing.number, number ≤ live.taken
  shut : live.discovery.dispatcher.isOpen = false →
    live.isDropped = true ∧ live.finishing = [] ∧ standing = none
  dropped : live.isDropped = true → live.calling = [] ∧
    ∀ job, live.discovery.job = some job → job.state ≠ .running

/-- A discovery that has just been made stands. -/
theorem Stands.fresh (registry : Registry) (identify : Nat → Session) :
    Stands [] { discovery := { registry, identify } } [] none where
  ledger := .empty
  engaged := .idle rfl rfl rfl
  parked := rfl
  numbers := rfl
  cancelled := nofun
  finishing := nofun
  shut := nofun
  dropped := nofun

variable {marks : List Mark} {live : Live} {settled : List (Ask × Call)}
  {standing : Option Ask}

/-- Only outcomes of searches that were accepted are taken. -/
theorem Stands.taken_le (stands : Stands marks live settled standing) :
    live.taken ≤ live.discovery.accepted := by
  cases stands.engaged with
  | idle | standing | answered => omega

/-- A discovery is not dropped while a callback has it in use. -/
theorem Stands.present (stands : Stands marks live settled standing) (busy : live.calling ≠ []) :
    live.isDropped = false := by
  by_contra dropped
  exact busy (stands.dropped (by simpa using dropped)).1

/-! ## Asking for a search -/

theorem asks_activities (activities : List Activity) : asks (activities.map .activity) = [] := by
  simp [asks, Mark.ask?]

theorem calls_activities (activities : List Activity) : calls (activities.map .activity) = [] := by
  simp [calls, Mark.call?]

/-- As long as the dispatcher is open, it takes every call. -/
theorem post_eq {discovery : Discovery} (isOpen : discovery.dispatcher.isOpen = true)
    (call : Call) :
    discovery.post call = { discovery with dispatcher :=
      { discovery.dispatcher with waiting := discovery.dispatcher.waiting ++ [call] } } := by
  simp [post, Dispatcher.post, isOpen]

/-- A call that is posted is due. -/
theorem due_post (isOpen : live.discovery.dispatcher.isOpen = true) (call : Call) :
    (call :: live.due).Perm (Live.due { live with discovery := live.discovery.post call }) := by
  simp only [Live.due, post_eq isOpen, List.append_assoc, List.singleton_append]
  exact List.perm_middle.symm

/-- The job of a discovery stays as it is while only calls are posted and made. -/
theorem Engaged.congr {more : List Mark} {other : Live} (engaged : Engaged marks live standing)
    (job : other.discovery.job = live.discovery.job)
    (accepted : other.discovery.accepted = live.discovery.accepted)
    (taken : other.taken = live.taken)
    (finishing : other.finishing.map Finishing.number = live.finishing.map Finishing.number)
    (silent : .cancelled live.discovery.accepted ∉ more) :
    Engaged (marks ++ more) other standing := by
  cases engaged with
  | idle none zero start => exact .idle (job.trans none) (accepted.trans zero) (taken.trans start)
  | standing callback job_eq follows cancelled going number =>
      rw [← accepted]
      apply Engaged.standing callback (job.trans job_eq) follows _ going (by omega)
      rw [accepted, List.mem_append]
      simpa [silent] using cancelled
  | answered job_eq follows decided posted number =>
      apply Engaged.answered (job.trans job_eq) follows decided _ (by omega)
      rwa [accepted, finishing]

theorem Engaged.keep {other : Live} (engaged : Engaged marks live standing)
    (job : other.discovery.job = live.discovery.job)
    (accepted : other.discovery.accepted = live.discovery.accepted)
    (taken : other.taken = live.taken)
    (finishing : other.finishing.map Finishing.number = live.finishing.map Finishing.number) :
    Engaged marks other standing := by
  have kept : Engaged (marks ++ []) other standing :=
    engaged.congr job accepted taken finishing List.not_mem_nil
  rwa [List.append_nil] at kept

/-- A search that is declined is answered at once. -/
theorem Stands.decline (stands : Stands marks live settled standing)
    (isOpen : live.discovery.dispatcher.isOpen = true) {ask : Ask} {answer : Call}
    (declined : ask.number? = none) (answers : Answers marks ask answer) :
    Stands (marks ++ [.asked ask]) { live with discovery := live.discovery.post answer }
      (settled ++ [(ask, answer)]) standing := by
  have ledger := (stands.ledger.decline answers declined).perm (due_post isOpen answer)
  have posted := post_eq isOpen answer
  constructor
  · exact ledger
  · apply stands.engaged.congr <;> simp [posted]
  · simpa [posted] using stands.parked
  · simpa [posted, asks_append, declined] using stands.numbers
  · simpa [posted] using stands.cancelled
  · exact stands.finishing
  · simp [posted, isOpen]
  · simpa [posted] using stands.dropped

/-- Where no search stands, the outcome of every search that was accepted has been taken. -/
theorem Engaged.taken_eq (engaged : Engaged marks live none) :
    live.taken = live.discovery.accepted := by
  cases engaged with
  | idle none zero start => omega
  | answered job_eq follows decided posted number => exact number.symm

/-- A search whose job is published and launched stands. -/
theorem Stands.publish (stands : Stands marks live settled none)
    (present : live.isDropped = false) (methods : List Method) (callback : Callback)
    (session : Option Session) :
    Stands (marks ++ [.asked ⟨callback, .accepted (live.discovery.accepted + 1) methods⟩])
      { live with discovery := { live.discovery with
          parked := some callback
          job := some (Job.new (Runner.ofMethods methods).execute).run.1
          session
          accepted := live.discovery.accepted + 1 } }
      settled (some ⟨callback, .accepted (live.discovery.accepted + 1) methods⟩) := by
  have unheard : .cancelled (live.discovery.accepted + 1) ∉ marks := by
    intro cancelled
    have := stands.cancelled _ cancelled
    omega
  constructor
  · exact stands.ledger.accept _
  · apply Engaged.standing callback rfl (.run _) _ rfl
    · simp [stands.engaged.taken_eq]
    · simpa [wasCancelled] using unheard
  · rfl
  · rw [List.range'_1_concat, ← stands.numbers, asks_append]
    simp [Ask.number?, Nat.add_comm]
  · intro number member
    rcases List.mem_append.mp member with old | new
    · exact Nat.le_succ_of_le (stands.cancelled number old)
    · simp at new
  · exact stands.finishing
  · intro closed
    have := stands.shut closed
    simp [present] at this
  · simp [present]

/-- What else can be seen does not matter, as far as nothing is asked for, called or stopped. -/
theorem Stands.quiet (stands : Stands marks live settled standing) {more : List Mark}
    (noAsks : asks more = []) (noCalls : calls more = [])
    (noStops : ∀ number, .cancelled number ∉ more) :
    Stands (marks ++ more) live settled standing where
  ledger := stands.ledger.quiet noAsks noCalls fun number cancelled =>
    absurd cancelled (noStops number)
  engaged := stands.engaged.congr rfl rfl rfl rfl (noStops _)
  parked := stands.parked
  numbers := by simpa [asks_append, noAsks] using stands.numbers
  cancelled := by simpa [noStops] using stands.cancelled
  finishing := stands.finishing
  shut := stands.shut
  dropped := stands.dropped

/-- A search that is accepted stands. -/
theorem Stands.accept (stands : Stands marks live settled standing)
    (present : live.isDropped = false) {options : Options} {number : Nat} {methods : List Method}
    (accepted : live.discovery.verdict options = .accepted number methods) (callback : Callback) :
    Stands (marks ++ ([.asked ⟨callback, .accepted number methods⟩] ++
        [.activity live.discovery.nextSession.started]))
      { live with discovery := (live.discovery.searchWith options (some callback)).2 } settled
      (some ⟨callback, .accepted number methods⟩) := by
  rcases verdict_eq_accepted.mp accepted with ⟨free, -, -, rfl⟩
  have parked := stands.parked
  obtain rfl : standing = none := by
    rw [free] at parked
    simpa using parked.symm
  rw [searchWith_of_accepted accepted, ← List.append_assoc]
  exact (stands.publish present methods callback _).quiet (asks_activities [_])
    (calls_activities [_]) (by simp)

/-- However a search is answered, the discovery goes on to stand. -/
theorem Stands.ask (stands : Stands marks live settled standing)
    (present : live.isDropped = false) (options : Options) (callback : Option Callback) :
    ∃ settled standing, Stands (marks ++ (live.ask options callback).1)
      (live.ask options callback).2 settled standing := by
  have isOpen : live.discovery.dispatcher.isOpen = true := by
    by_contra closed
    have := stands.shut (by simpa using closed)
    simp [present] at this
  cases callback with
  | none =>
      have next : Stands (marks ++ (live.ask options none).1) (live.ask options none).2
          settled standing := by
        simpa [Live.ask, searchWith] using stands
      exact ⟨_, _, next⟩
  | some callback =>
      cases verdict : live.discovery.verdict options with
      | busy =>
          have next := stands.decline isOpen rfl (.busy callback)
          simp only [Live.ask, searchWith_of_busy verdict, verdict]
          exact ⟨_, _, next⟩
      | missing =>
          have next := stands.decline isOpen rfl (.missing callback)
          simp only [Live.ask, searchWith_of_missing verdict, verdict]
          exact ⟨_, _, next⟩
      | accepted number methods =>
          have next := stands.accept present verdict callback
          rw [searchWith_of_accepted verdict] at next
          simp only [Live.ask, searchWith_of_accepted verdict, verdict]
          exact ⟨_, _, next⟩

/-- What the callback that is being called has still to ask for does not matter. -/
theorem Stands.withCalling (stands : Stands marks live settled standing)
    (present : live.isDropped = false) (calling : List (Options × Callback)) :
    Stands marks { live with calling } settled standing where
  ledger := stands.ledger
  engaged := stands.engaged.keep rfl rfl rfl rfl
  parked := stands.parked
  numbers := stands.numbers
  cancelled := stands.cancelled
  finishing := stands.finishing
  shut := stands.shut
  dropped := by simp [present]

/-! ## The job and its outcome -/

theorem asks_ofJob (number : Nat) (seen : List (Job.Mark Activity)) :
    asks (seen.map (.ofJob number)) = [] := by
  simp only [asks, List.filterMap_map, List.filterMap_eq_nil_iff]
  intro mark _
  cases mark <;> rfl

theorem calls_ofJob (number : Nat) (seen : List (Job.Mark Activity)) :
    calls (seen.map (.ofJob number)) = [] := by
  simp only [calls, List.filterMap_map, List.filterMap_eq_nil_iff]
  intro mark _
  cases mark <;> rfl

theorem cancelled_mem_ofJob {number other : Nat} {seen : List (Job.Mark Activity)} :
    Mark.cancelled other ∈ seen.map (.ofJob number) ↔
      other = number ∧ wasCancelled seen = true := by
  simp only [List.mem_map, wasCancelled, List.any_eq_true]
  constructor
  · rintro ⟨mark, member, same⟩
    cases mark with
    | signal => cases same
    | cancelled =>
        cases same
        exact ⟨rfl, _, member, rfl⟩
  · rintro ⟨rfl, mark, member, cancelled⟩
    cases mark with
    | signal => cases cancelled
    | cancelled => exact ⟨_, member, rfl⟩

/-- The turns of the job keep it engaged; once its outcome has been taken, nothing can be
seen of it any more. -/
theorem Engaged.work (engaged : Engaged marks live standing)
    {job : Job Activity (List Bridge × Runner)} (present : live.discovery.job = some job)
    (next : Job.Turn) :
    Engaged (marks ++ (job.turn next).1.map (.ofJob live.discovery.accepted))
        { live with discovery := { live.discovery with job := some (job.turn next).2 } }
        standing ∧
      (live.taken < live.discovery.accepted ∨ (job.turn next).1 = []) := by
  cases engaged with
  | idle none =>
      rw [present] at none
      cases none
  | standing callback job_eq follows cancelled going number =>
      obtain rfl := Option.some.inj (job_eq.symm.trans present)
      constructor
      · apply Engaged.standing callback rfl (follows.turn next)
        · simp [cancelled, cancelled_mem_ofJob]
        · rwa [(Job.step_turn next _).isFinished]
        · exact number
      · left
        omega
  | answered job_eq follows decided posted number =>
      obtain rfl := Option.some.inj (job_eq.symm.trans present)
      have silent := follows.silent decided (Job.step_turn next _)
      constructor
      · apply Engaged.answered rfl (follows.turn next) ((Job.step_turn next _).isDecided decided)
        · rwa [(Job.step_turn next _).isFinished]
        · exact number
      · right
        exact silent

/-- The turns of the job leave the discovery standing. -/
theorem Stands.work (stands : Stands marks live settled standing) (next : Job.Turn) :
    Stands (marks ++ (live.work next).1) (live.work next).2 settled standing := by
  unfold Live.work
  cases present : live.discovery.job with
  | none => simpa using stands
  | some job =>
      rcases stands.engaged.work present next with ⟨engaged, late⟩
      constructor
      · apply stands.ledger.quiet (asks_ofJob _ _) (calls_ofJob _ _)
        intro number cancelled
        rcases cancelled_mem_ofJob.mp cancelled with ⟨rfl, cancelled⟩
        rcases late with late | silent
        · exact late
        · simp [silent] at cancelled
      · exact engaged
      · exact stands.parked
      · simpa [asks_append, asks_ofJob] using stands.numbers
      · intro number member
        rcases List.mem_append.mp member with old | new
        · exact stands.cancelled number old
        · exact Nat.le_of_eq (cancelled_mem_ofJob.mp new).1
      · exact stands.finishing
      · exact stands.shut
      · intro dropped
        rcases stands.dropped dropped with ⟨idle, stopped⟩
        constructor
        · exact idle
        · rintro _ ⟨⟩ running
          exact stopped job present ((Job.step_turn next job).running running)

/-- What a job reports is what the run of its methods has ended with. -/
theorem delivers_of_outcome? {job : Job Activity (List Bridge × Runner)}
    {seen : List (Job.Mark Activity)} {methods : List Method}
    {outcome : Outcome (List Bridge × Runner)}
    (follows : Follows (Runner.ofMethods methods).execute seen job)
    (reported : job.outcome? = some outcome) :
    job.stage.isDecided = true ∧ Delivers methods outcome.output.1 := by
  rcases follows.course with ⟨observed, rest, course, -, leaves⟩
  rcases job with ⟨state, token, stage⟩
  cases stage with
  | reporting output =>
      cases reported
      obtain rfl : rest = .done outcome.output := leaves
      exact ⟨rfl, observed, token, outcome.output.2, course⟩
  | ready | claimed | executing | returned | finished => cases reported

/-- The outcome of a job answers the search that the job was started for. -/
theorem answers_of_outcome? {job : Job Activity (List Bridge × Runner)}
    {seen : List (Job.Mark Activity)} {methods : List Method} {number : Nat}
    {outcome : Outcome (List Bridge × Runner)} (callback : Callback)
    (follows : Follows (Runner.ofMethods methods).execute seen job)
    (cancelled : .cancelled number ∈ marks ↔ wasCancelled seen = true)
    (reported : job.outcome? = some outcome) :
    Answers marks ⟨callback, .accepted number methods⟩
      ⟨callback, outcome.output.1, .ofCancelled outcome.cancelled⟩ := by
  have delivers := (delivers_of_outcome? follows reported).2
  rw [follows.outcome outcome reported]
  cases was : wasCancelled seen with
  | true => exact .stopped callback (cancelled.mpr was) delivers
  | false =>
      apply Answers.success callback _ delivers
      rw [cancelled, was]
      exact Bool.false_ne_true

/-- When the outcome of the job is taken, the search that stands is settled. -/
theorem Stands.take (stands : Stands marks live settled standing) :
    ∃ settled standing, Stands marks live.take settled standing := by
  unfold Live.take
  cases reported : live.discovery.job.bind Job.outcome? with
  | none => exact ⟨_, _, stands⟩
  | some outcome =>
      by_cases taken : live.taken = live.discovery.accepted
      · simp only [if_pos taken]
        exact ⟨_, _, stands⟩
      · simp only [if_neg taken]
        rcases Option.bind_eq_some_iff.mp reported with ⟨job, present, reported⟩
        cases stands.engaged with
        | idle none => simp [none] at present
        | answered job_eq follows decided posted number => exact absurd number.symm taken
        | standing callback job_eq follows cancelled going number =>
            obtain rfl := Option.some.inj (job_eq.symm.trans present)
            have answers := answers_of_outcome? callback follows cancelled reported
            have parked : live.discovery.parked = some callback := stands.parked
            have decided := (delivers_of_outcome? follows reported).1
            have ledger : Ledger marks _ live.discovery.accepted _ none :=
              stands.ledger.settle answers (by omega) (by simp [Ask.number?])
            simp only [Discovery.take]
            refine ⟨_, none, ledger.perm ?_, ?_, rfl, stands.numbers, stands.cancelled, ?_, ?_,
              stands.dropped⟩
            · simp only [Live.due, parked, List.map_append, List.filterMap_append,
                ← List.append_assoc]
              exact (List.perm_append_singleton _ _).symm
            · apply Engaged.answered _ follows decided
              · right
                simp
              · rfl
              · exact present
            · intro number' member
              rw [List.map_append] at member
              rcases List.mem_append.mp member with old | new
              · have := stands.finishing number' old
                simp only
                omega
              · exact Nat.le_of_eq (List.mem_singleton.mp new)
            · intro closed
              have := (stands.shut closed).2.2
              cases this

/-- What does not read whether an outcome has been reported is the same for all of them. -/
theorem map_announced {α : Type} {change : Finishing → α} {finishing : List Finishing} {place : Nat}
    {first : Finishing} (blind : change { first with announced := true } = change first)
    (found : finishing[place]? = some first) :
    (finishing.set place { first with announced := true }).map change = finishing.map change := by
  rcases List.getElem?_eq_some_iff.mp found with ⟨bound, rfl⟩
  rw [List.map_set, blind]
  apply List.ext_getElem?
  intro other
  by_cases same : place = other
  · subst same
    simp [bound]
  · simp [same]

/-- Reporting an outcome leaves the discovery standing. -/
theorem Stands.announce (stands : Stands marks live settled standing) (place : Nat) :
    Stands (marks ++ (live.announce place).1) (live.announce place).2 settled standing := by
  unfold Live.announce
  cases found : live.finishing[place]? with
  | none => simpa using stands
  | some first =>
      by_cases announced : first.announced = true
      · simpa [announced] using stands
      · simp only [if_neg announced]
        have numbers : (live.finishing.set place { first with announced := true }).map
            Finishing.number = live.finishing.map Finishing.number := map_announced rfl found
        have reporters : (live.finishing.set place { first with announced := true }).map
            Finishing.reporter = live.finishing.map Finishing.reporter := map_announced rfl found
        constructor
        · have ledger := stands.ledger.quiet (asks_activities first.reporter.reports)
            (calls_activities _) (by simp)
          simpa [Live.due, reporters] using ledger
        · apply stands.engaged.congr <;> simp [numbers]
        · exact stands.parked
        · simpa [asks_append, asks_activities] using stands.numbers
        · simpa using stands.cancelled
        · simpa [numbers] using stands.finishing
        · intro closed
          rcases stands.shut closed with ⟨dropped, empty, none⟩
          simp [empty] at found
        · exact stands.dropped

/-- What a reporter hands over is due already, while it is being reported. -/
theorem due_hand {place : Nat} {first : Finishing} (found : live.finishing[place]? = some first)
    (isOpen : live.discovery.dispatcher.isOpen = true) :
    live.due.Perm (Live.due { live with
      discovery := live.discovery.hand first.reporter
      finishing := live.finishing.eraseIdx place }) := by
  rcases List.getElem?_eq_some_iff.mp found with ⟨bound, rfl⟩
  have split := ((List.getElem_cons_eraseIdx_perm bound).symm.map Finishing.reporter).filterMap
    Reporter.call?
  unfold hand
  cases call : live.finishing[place].reporter.call? with
  | none =>
      rw [List.map_cons, List.filterMap_cons_none call] at split
      exact split.append_left _
  | some call' =>
      rw [List.map_cons, List.filterMap_cons_some call] at split
      simp only [Live.due, post_eq isOpen, List.append_assoc, List.singleton_append]
      exact split.append_left _

/-- Nothing but what waits at the dispatcher is changed by handing over. -/
theorem exists_hand_eq (reporter : Reporter) (discovery : Discovery) :
    ∃ waiting, discovery.hand reporter =
      { discovery with dispatcher := { discovery.dispatcher with waiting } } := by
  unfold hand
  split
  · rename_i call _
    unfold post Dispatcher.post
    split
    · exact ⟨_, rfl⟩
    · exact ⟨_, rfl⟩
  · exact ⟨_, rfl⟩

/-- Nothing but how far the job has come is changed when it is over. -/
theorem exists_close_eq (number : Nat) (discovery : Discovery) :
    ∃ job, close number discovery = { discovery with job } ∧ ∀ next, job = some next →
      ∃ before, discovery.job = some before ∧ before.state = next.state := by
  unfold close
  split
  · refine ⟨_, rfl, ?_⟩
    intro next closed
    rcases Option.map_eq_some_iff.mp closed with ⟨before, was, rfl⟩
    have same : before.state = before.close.state := by
      rcases before with ⟨state, token, stage⟩
      cases stage <;> rfl
    exact ⟨before, was, same⟩
  · exact ⟨_, rfl, fun next same => ⟨next, same, rfl⟩⟩

/-- Of several outcomes, the others are still being reported when one is posted. -/
theorem mem_eraseIdx_of_ne {finishing : List Finishing} {place number : Nat} {first : Finishing}
    (found : finishing[place]? = some first) (other : first.number ≠ number)
    (member : number ∈ finishing.map Finishing.number) :
    number ∈ (finishing.eraseIdx place).map Finishing.number := by
  rcases List.mem_map.mp member with ⟨second, there, rfl⟩
  rcases List.getElem_of_mem there with ⟨index, bound, rfl⟩
  apply List.mem_map_of_mem
  rw [List.mem_eraseIdx_iff_getElem]
  have apart : index ≠ place := by
    rintro rfl
    rw [List.getElem?_eq_getElem bound] at found
    cases found
    exact other rfl
  exact ⟨index, bound, apart, rfl⟩

/-- When an outcome is posted, its job is over, and other jobs stay engaged. -/
theorem Engaged.post (engaged : Engaged marks live standing) {place : Nat} {first : Finishing}
    (found : live.finishing[place]? = some first) (old : first.number ≤ live.taken) :
    Engaged marks { live with
      discovery := close first.number (live.discovery.hand first.reporter)
      finishing := live.finishing.eraseIdx place } standing := by
  rcases exists_hand_eq first.reporter live.discovery with ⟨waiting, handed⟩
  rw [handed]
  cases engaged with
  | idle none zero start =>
      simp only [close]
      split
      · exact .idle (by simp [none]) zero start
      · exact .idle none zero start
  | standing callback job_eq follows cancelled going number =>
      have other : first.number ≠ live.discovery.accepted := by omega
      simp only [close, if_neg other]
      exact .standing callback job_eq follows cancelled going number
  | answered job_eq follows decided posted number =>
      simp only [close]
      split
      · have closed := Job.stage_close decided
        apply Engaged.answered
        · rw [job_eq]
          rfl
        · exact follows.close
        · rw [closed]
          rfl
        · left
          rw [Job.isFinished, closed]
        · exact number
      · rename_i other
        exact .answered job_eq follows decided (posted.imp_right (mem_eraseIdx_of_ne found other))
          number

/-- When an outcome is posted, its call is due as before. -/
theorem Stands.post (stands : Stands marks live settled standing) (place : Nat) :
    Stands marks (live.post place) settled standing := by
  unfold Live.post
  cases found : live.finishing[place]? with
  | none => exact stands
  | some first =>
      by_cases announced : first.announced = true
      · have old : first.number ≤ live.taken :=
          stands.finishing _ (List.mem_map_of_mem (List.mem_of_getElem? found))
        have isOpen : live.discovery.dispatcher.isOpen = true := by
          by_contra closed
          have := (stands.shut (by simpa using closed)).2.1
          simp [this] at found
        have due := due_hand found isOpen
        have engaged := stands.engaged.post found old
        rcases exists_hand_eq first.reporter live.discovery with ⟨waiting, handed⟩
        rw [handed] at due engaged
        simp only [if_pos announced, handed]
        obtain ⟨job, closed, states⟩ := exists_close_eq first.number { live.discovery with
          dispatcher := { live.discovery.dispatcher with waiting } }
        rw [closed] at engaged ⊢
        constructor
        · exact stands.ledger.perm due
        · exact engaged
        · exact stands.parked
        · exact stands.numbers
        · exact stands.cancelled
        · intro number member
          apply stands.finishing
          rcases List.mem_map.mp member with ⟨other, there, rfl⟩
          exact List.mem_map_of_mem (List.mem_of_mem_eraseIdx there)
        · intro closed
          simp [isOpen] at closed
        · intro dropped
          rcases stands.dropped dropped with ⟨idle, stopped⟩
          constructor
          · exact idle
          · intro next present running
            rcases states next present with ⟨before, was, same⟩
            exact stopped before was (same.trans running)
      · simpa [announced] using stands

/-! ## Calling and dropping -/

theorem next?_eq_some {dispatcher rest : Dispatcher Call} {call : Call}
    (taken : dispatcher.next? = some (call, rest)) :
    dispatcher.waiting = call :: rest.waiting ∧ rest.isOpen = dispatcher.isOpen := by
  unfold Dispatcher.next? at taken
  split at taken
  · cases taken
  · rename_i same
    cases taken
    exact ⟨same, rfl⟩

/-- A call that is made was due. -/
theorem Stands.call (stands : Stands marks live settled standing) :
    Stands (marks ++ live.call.1) live.call.2 settled standing := by
  unfold Live.call
  split
  · rename_i call dispatcher idle taken
    rcases next?_eq_some taken with ⟨waiting, same⟩
    constructor
    · apply Ledger.make
      have ledger := stands.ledger
      rwa [Live.due, waiting] at ledger
    · apply stands.engaged.congr <;> simp
    · exact stands.parked
    · simpa [asks_append] using stands.numbers
    · simpa using stands.cancelled
    · exact stands.finishing
    · intro closed
      exact stands.shut (same.symm.trans closed)
    · intro dropped
      rcases stands.dropped dropped with ⟨-, stopped⟩
      exact ⟨if_pos dropped, stopped⟩
  · simpa using stands

/-- A callback that is being called asks like the caller does. -/
theorem Stands.nested (stands : Stands marks live settled standing) :
    ∃ settled standing, Stands (marks ++ live.nested.1) live.nested.2 settled standing := by
  unfold Live.nested
  split
  · rw [List.append_nil]
    exact ⟨settled, standing, stands⟩
  · rename_i options callback rest calling
    have present : live.isDropped = false := stands.present (by simp [calling])
    exact (stands.withCalling present rest).ask present options (some callback)

/-- Dropping a discovery asks the search that is running to stop. -/
theorem Stands.drop (stands : Stands marks live settled standing) :
    Stands (marks ++ live.drop.1) live.drop.2 settled standing := by
  unfold Live.drop
  split
  · simpa using stands
  · rename_i free
    have next := stands.work .request
    have stopped : ∀ job, (live.work .request).2.discovery.job = some job →
        job.state ≠ .running := by
      intro job present
      unfold Live.work at present
      cases before : live.discovery.job with
      | none => simp [before] at present
      | some job =>
          rw [before] at present
          obtain rfl := Option.some.inj present
          exact Job.state_request job
    have idle : (live.work .request).2.calling = [] := by
      have same : (live.work .request).2.calling = live.calling := by
        unfold Live.work
        split <;> rfl
      rw [same]
      simp only [Bool.or_eq_true, Bool.not_eq_true', List.isEmpty_eq_false_iff, not_or] at free
      simpa using free.2
    exact
      { ledger := next.ledger
        engaged := next.engaged.keep rfl rfl rfl rfl
        parked := next.parked
        numbers := next.numbers
        cancelled := next.cancelled
        finishing := next.finishing
        shut := fun closed => ⟨rfl, (next.shut closed).2⟩
        dropped := fun _ => ⟨idle, stopped⟩ }

/-- The dispatcher is shut down only when no call can become due any more. -/
theorem Stands.closeDown (stands : Stands marks live settled standing) :
    Stands marks live.shut settled standing := by
  unfold Live.shut
  split
  · rename_i possible
    simp only [Bool.and_eq_true, List.isEmpty_iff] at possible
    rcases possible with ⟨⟨dropped, empty⟩, ended⟩
    have none : standing = none := by
      cases stands.engaged with
      | idle | answered => rfl
      | standing callback job_eq follows cancelled going number =>
          simp [isOver, job_eq, Job.isOver, going, follows.state_ne_notStarted] at ended
    exact
      { ledger := stands.ledger
        engaged := stands.engaged.keep rfl rfl rfl rfl
        parked := stands.parked
        numbers := stands.numbers
        cancelled := stands.cancelled
        finishing := stands.finishing
        shut := fun _ => ⟨dropped, empty, none⟩
        dropped := stands.dropped }
  · exact stands

/-- Whatever turn is taken, the discovery goes on to stand. -/
theorem Stands.turn (stands : Stands marks live settled standing) (next : Turn) :
    ∃ settled standing,
      Stands (marks ++ (live.turn next).1) (live.turn next).2 settled standing := by
  cases next with
  | search options callback =>
      simp only [Live.turn]
      split
      · exact ⟨_, _, by simpa using stands⟩
      · rename_i present
        exact stands.ask (by simpa using present) options callback
  | job next => exact ⟨_, _, stands.work next⟩
  | take => simpa [Live.turn] using stands.take
  | announce place => exact ⟨_, _, stands.announce place⟩
  | post place => exact ⟨_, _, by simpa [Live.turn] using stands.post place⟩
  | call => exact ⟨_, _, stands.call⟩
  | nested => exact stands.nested
  | drop => exact ⟨_, _, stands.drop⟩
  | shut => exact ⟨_, _, by simpa [Live.turn] using stands.closeDown⟩

/-- By whatever schedule it works, the discovery goes on to stand. -/
theorem Stands.workBy (stands : Stands marks live settled standing) (turns : List Turn) :
    ∃ settled standing,
      Stands (marks ++ (live.workBy turns).1) (live.workBy turns).2 settled standing := by
  have keeps (history : List Mark) (live : Live) (next : Turn) :
      (∃ settled standing, Stands history live settled standing) →
        ∃ settled standing,
          Stands (history ++ (live.turn next).1) (live.turn next).2 settled standing := by
    rintro ⟨settled, standing, stands⟩
    exact stands.turn next
  exact play_preserves keeps turns ⟨settled, standing, stands⟩

end BridgeFinder.Discovery
