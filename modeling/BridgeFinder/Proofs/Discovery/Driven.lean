import BridgeFinder.Proofs.Discovery.Stop
import BridgeFinder.Proofs.Job.Settle

/-!
# Discoveries that are driven

Whoever drives a discovery makes calls that nothing comes between.  Each of them is an
orderly schedule of turns, so what holds of a discovery by whatever orderly schedule holds of
one that is driven.
-/

namespace BridgeFinder.Discovery

/-- What happens, as far as it shows outside. -/
def happenings (marks : List Mark) : List Happening :=
  marks.filterMap Mark.happening?

/-- An orderly schedule leads from one state of a discovery to another, and this is what
happens meanwhile. -/
def Live.Unfolds (live : Live) (shown : List Happening) (last : Live) : Prop :=
  ∃ turns marks, live.workBy turns = (marks, last) ∧ live.Orderly turns ∧ happenings marks = shown

/-- A discovery that is driven: it is searched with, moved on, let on and stopped. -/
inductive Driven (registry : Registry) (identify : Nat → Session) :
    List Happening → Discovery → Prop where
  | built : Driven registry identify [] { registry, identify }
  | search {shown : List Happening} {discovery : Discovery} (options : Options)
      (callback : Option Callback) (driven : Driven registry identify shown discovery) :
      Driven registry identify
        (shown ++ (discovery.searchWith options callback).1.map .activity)
        (discovery.searchWith options callback).2
  | settle {shown : List Happening} {discovery : Discovery}
      (driven : Driven registry identify shown discovery) :
      Driven registry identify (shown ++ discovery.settle.1) discovery.settle.2
  | release {shown : List Happening} {discovery next : Discovery}
      (released : discovery.release? = some next)
      (driven : Driven registry identify shown discovery) : Driven registry identify shown next
  | stop {shown : List Happening} {discovery : Discovery}
      (driven : Driven registry identify shown discovery) :
      Driven registry identify (shown ++ discovery.stop.1.map .activity) discovery.stop.2

/-! ## Schedules -/

namespace Live

variable {live last : Live} {shown more : List Happening}

namespace Unfolds

theorem rest (live : Live) : live.Unfolds [] live :=
  ⟨[], [], rfl, trivial, rfl⟩

theorem trans {next : Live} (here : live.Unfolds shown next) (there : next.Unfolds more last) :
    live.Unfolds (shown ++ more) last := by
  rcases here with ⟨turns, first, played, orderly, rfl⟩
  rcases there with ⟨others, second, continued, onward, rfl⟩
  refine ⟨turns ++ others, first ++ second, ?_, ?_, List.filterMap_append⟩
  · rw [workBy] at played continued
    rw [workBy, play_append, played, continued]
  · rw [orderly_append, played]
    exact ⟨orderly, onward⟩

theorem one {marks : List Mark} (next : Turn) (orderly : live.Orderly [next])
    (taken : live.turn next = (marks, last)) : live.Unfolds (happenings marks) last :=
  ⟨[next], marks, by simp [workBy, play_cons, taken], orderly, rfl⟩

theorem quiet {marks : List Mark} (next : Turn) (quiet : next.asks = false)
    (taken : live.turn next = (marks, last)) : live.Unfolds (happenings marks) last :=
  .one next (orderly_quiet (List.forall_mem_singleton.mpr quiet)) taken

end Unfolds

theorem happenings_activities (activities : List Activity) :
    happenings (activities.map .activity) = activities.map .activity := by
  simp [happenings, List.filterMap_map, Function.comp_def, Mark.happening?]

theorem happenings_ofJob (number : Nat) (marks : List (Job.Mark Activity)) :
    happenings (marks.map (.ofJob number)) = (Job.signals marks).map .activity := by
  induction marks with
  | nil => rfl
  | cons first rest ih =>
      cases first with
      | signal activity => exact congrArg (Happening.activity activity :: ·) ih
      | cancelled => exact ih

/-- What the job does by itself, it does in the discovery. -/
theorem unfolds_job {job next : Job Activity (List Bridge × Runner)}
    {marks : List (Job.Mark Activity)} (present : live.discovery.job = some job)
    (reaches : Reaches Job.turn job marks next) :
    live.Unfolds ((Job.signals marks).map .activity)
      { live with discovery := { live.discovery with job := some next } } := by
  rcases live with ⟨discovery, taken, finishing, calling, isDropped⟩
  rcases discovery with ⟨registry, identify, accepted, parked, job', session, dispatcher⟩
  obtain rfl : job' = some job := present
  let among (job : Job Activity (List Bridge × Runner)) : Live :=
    ⟨⟨registry, identify, accepted, parked, some job, session, dispatcher⟩, taken, finishing,
      calling, isDropped⟩
  have same (one : Job.Turn) (job : Job Activity (List Bridge × Runner)) :
      Live.turn (.job one) (among job) =
        ((job.turn one).1.map (Mark.ofJob accepted), among (job.turn one).2) := rfl
  rcases reaches with ⟨turns, played⟩
  have lifted := play_lift Turn.job (Mark.ofJob accepted) among same turns job
  rw [played] at lifted
  have quiet : ∀ next ∈ turns.map Turn.job, next.asks = false := by simp [Turn.asks]
  exact ⟨_, _, lifted, orderly_quiet quiet, happenings_ofJob accepted marks⟩

/-- A search that is asked for shows only by what it does. -/
theorem happenings_ask (options : Options) (callback : Option Callback) (live : Live) :
    happenings (live.ask options callback).1 =
      (live.discovery.searchWith options callback).1.map .activity := by
  have quiet : happenings (callback.map fun callback =>
      Mark.asked ⟨callback, live.discovery.verdict options⟩).toList = [] := by
    cases callback <;> rfl
  simp only [ask, happenings, List.filterMap_append]
  rw [← happenings, ← happenings, quiet, happenings_activities, List.nil_append]

/-- What the caller asks for. -/
theorem unfolds_search (options : Options) (callback : Option Callback) (discovery : Discovery)
    (taken : Nat) :
    Unfolds { discovery, taken } ((discovery.searchWith options callback).1.map .activity)
      { discovery := (discovery.searchWith options callback).2, taken } := by
  rw [← happenings_ask options callback { discovery, taken }]
  exact .one (.search options callback) ⟨fun _ => nofun, trivial⟩ rfl

/-- What a callback that is being called asks for. -/
theorem unfolds_searchAll (searches : List (Options × Callback)) (discovery : Discovery)
    (taken : Nat) :
    Unfolds { discovery, taken, calling := searches }
      ((discovery.searchAll searches).1.map .activity)
      { discovery := (discovery.searchAll searches).2, taken } := by
  induction searches generalizing discovery with
  | nil => exact .rest _
  | cons first rest ih =>
      rcases first with ⟨options, callback⟩
      let live : Live := { discovery, taken, calling := rest }
      have asked : Unfolds { discovery, taken, calling := (options, callback) :: rest }
          (happenings (live.ask options (some callback)).1) (live.ask options (some callback)).2 :=
        .one .nested ⟨fun _ => nofun, trivial⟩ rfl
      rw [happenings_ask] at asked
      have all := asked.trans (ih (discovery.searchWith options (some callback)).2)
      simp only [searchAll, List.map_append]
      exact all

/-- The callback of the oldest call is called and asks for all its searches. -/
theorem unfolds_deliver {discovery next : Discovery} {shown : List Happening}
    (delivered : discovery.deliver? = some (shown, next)) (taken : Nat) :
    Unfolds { discovery, taken } shown { discovery := next, taken } := by
  rcases Option.map_eq_some_iff.mp delivered with ⟨⟨call, dispatcher⟩, found, same⟩
  rcases Prod.mk.inj same with ⟨rfl, rfl⟩
  have called : Live.turn .call { discovery, taken } =
      ([.called call],
        { discovery := { discovery with dispatcher }
          taken
          calling := call.callback.searches }) := by
    simp [turn, Live.call, found]
  exact (Unfolds.quiet .call rfl called).trans
    (unfolds_searchAll call.callback.searches { discovery with dispatcher } taken)

/-- The outcome of a job is taken, reported and posted. -/
theorem unfolds_finish {discovery : Discovery} {taken : Nat}
    {job : Job Activity (List Bridge × Runner)} {outcome : Outcome (List Bridge × Runner)}
    (present : discovery.job = some job) (reported : job.outcome? = some outcome)
    (untaken : taken ≠ discovery.accepted) :
    let finished := { discovery with job := some job.close }.finish outcome
    Unfolds { discovery, taken } (finished.1.map .activity)
      { discovery := finished.2, taken := discovery.accepted } := by
  rcases discovery with ⟨registry, identify, accepted, parked, job', session, dispatcher⟩
  obtain rfl : job' = some job := present
  intro finished
  let reporter : Reporter := ⟨parked, session, outcome⟩
  let free : Discovery := ⟨registry, identify, accepted, none, some job, session, dispatcher⟩
  have take : Live.turn .take
      { discovery := ⟨registry, identify, accepted, parked, some job, session, dispatcher⟩
        taken } =
        ([], { discovery := free
               taken := accepted
               finishing := [⟨accepted, reporter, false⟩] }) := by
    simp only [turn, Live.take, Option.bind_some, reported]
    rw [if_neg untaken]
    rfl
  have announce : Live.turn (.announce 0)
      { discovery := free, taken := accepted, finishing := [⟨accepted, reporter, false⟩] } =
        (reporter.reports.map .activity,
          { discovery := free, taken := accepted, finishing := [⟨accepted, reporter, true⟩] }) :=
    rfl
  have post : Live.turn (.post 0)
      { discovery := free, taken := accepted, finishing := [⟨accepted, reporter, true⟩] } =
        ([], { discovery := finished.2, taken := accepted }) := by
    have ended : close accepted (free.hand reporter) = finished.2 := by
      cases parked with
      | none => simp [close, hand, reporter, Reporter.call?, free, finished, finish, Discovery.take]
      | some callback =>
          simp [close, hand, reporter, Reporter.call?, free, finished, finish, Discovery.take,
            Discovery.post]
    simp only [turn, Live.post, List.getElem?_cons_zero, if_true, ended, List.eraseIdx_zero,
      List.tail_cons]
  have all := ((Unfolds.quiet _ rfl take).trans (.quiet _ rfl announce)).trans (.quiet _ rfl post)
  have reports : finished.1 = reporter.reports := rfl
  have silent : happenings [] = [] := rfl
  simpa [reports, silent, happenings_activities] using all

end Live

/-! ## Calls that nothing comes between -/

/-- A discovery that stands between two calls, when nothing is being called or reported. -/
def Stood (discovery : Discovery) (taken : Nat) : Prop :=
  ∃ marks settled standing, Stands marks { discovery, taken } settled standing

/-- What a schedule leads to stands. -/
theorem Stood.unfolds {discovery last : Discovery} {taken taken' : Nat} {shown : List Happening}
    (stood : Stood discovery taken)
    (unfolds : Live.Unfolds { discovery, taken } shown { discovery := last, taken := taken' }) :
    Stood last taken' := by
  rcases stood with ⟨marks, settled, standing, stands⟩
  rcases unfolds with ⟨turns, more, played, -, -⟩
  have later := stands.workBy turns
  rw [played] at later
  exact ⟨_, later⟩

/-- Between two calls, a job whose outcome has been taken reports nothing. -/
theorem Stood.untaken {discovery : Discovery} {taken : Nat} (stood : Stood discovery taken)
    {job : Job Activity (List Bridge × Runner)} (present : discovery.job = some job)
    {outcome : Outcome (List Bridge × Runner)} (reported : job.settle.2.outcome? = some outcome) :
    taken ≠ discovery.accepted := by
  rcases stood with ⟨marks, settled, standing, stands⟩
  intro same
  cases stands.engaged with
  | idle none =>
      rw [present] at none
      cases none
  | standing callback job_eq follows cancelled going number =>
      simp only at number
      omega
  | answered job_eq follows decided posted number =>
      obtain rfl := Option.some.inj (job_eq.symm.trans present)
      rename_i job _ _
      rcases job with ⟨state, token, stage⟩
      cases stage with
      | finished => cases reported
      | ready | claimed | executing | returned | reporting => simp [Job.isFinished] at posted

/-- Moving the job on is a schedule. -/
theorem Stood.progress {discovery : Discovery} {taken : Nat} (stood : Stood discovery taken) :
    ∃ taken', Live.Unfolds { discovery, taken } (discovery.progress.1.map .activity)
      { discovery := discovery.progress.2, taken := taken' } := by
  unfold Discovery.progress
  cases present : discovery.job with
  | none => exact ⟨taken, .rest _⟩
  | some job =>
      have moved : Live.Unfolds { discovery, taken } _ _ :=
        Live.unfolds_job present (Job.reaches_settle job)
      rw [Job.signals_signals] at moved
      cases reported : job.settle.2.outcome? with
      | none =>
          simp only [reported]
          exact ⟨taken, moved⟩
      | some outcome =>
          have finished : Live.Unfolds
              { discovery := { discovery with job := some job.settle.2 }, taken } _ _ :=
            Live.unfolds_finish rfl reported (stood.untaken present reported)
          simp only [reported, List.map_append]
          exact ⟨_, moved.trans finished⟩

/-- So is a step that needs nothing from outside. -/
theorem Stood.step {discovery : Discovery} {taken : Nat} (stood : Stood discovery taken) :
    ∃ taken', Live.Unfolds { discovery, taken } discovery.step.1
      { discovery := discovery.step.2, taken := taken' } := by
  unfold Discovery.step
  cases delivered : discovery.deliver? with
  | some step => exact ⟨taken, Live.unfolds_deliver delivered taken⟩
  | none => exact stood.progress

/-- So are several steps. -/
theorem Stood.steps {discovery : Discovery} {taken : Nat} (stood : Stood discovery taken)
    (count : Nat) :
    ∃ taken', Live.Unfolds { discovery, taken } (discovery.steps count).1
      { discovery := (discovery.steps count).2, taken := taken' } := by
  induction count generalizing discovery taken with
  | zero => exact ⟨taken, .rest _⟩
  | succ count ih =>
      rcases stood.step with ⟨middle, first⟩
      rcases ih (stood.unfolds first) with ⟨taken', others⟩
      exact ⟨taken', first.trans others⟩

/-- Letting the job on is a schedule. -/
theorem unfolds_release {discovery next : Discovery} (released : discovery.release? = some next)
    (taken : Nat) : Live.Unfolds { discovery, taken } [] { discovery := next, taken } := by
  rcases Option.bind_eq_some_iff.mp released with ⟨job, present, waiting⟩
  rcases Option.map_eq_some_iff.mp waiting with ⟨last, on, rfl⟩
  have live : Live.Unfolds { discovery, taken } _ _ :=
    Live.unfolds_job present (Job.reaches_release on)
  exact live

/-- Asking the search that is running to stop is a schedule. -/
theorem unfolds_cancel (discovery : Discovery) (taken : Nat) :
    Live.Unfolds { discovery, taken } [] { discovery := discovery.cancel, taken } := by
  rcases discovery with ⟨registry, identify, accepted, parked, job, session, dispatcher⟩
  cases job with
  | none => exact .rest _
  | some job =>
      have asked : Live.Unfolds
          { discovery := ⟨registry, identify, accepted, parked, some job, session, dispatcher⟩,
            taken } _ _ :=
        Live.unfolds_job rfl (Job.reaches_cancel job)
      have silent : Job.signals (if job.cancel.2 then [.cancelled] else []) =
          ([] : List Activity) := by
        split <;> rfl
      rw [silent] at asked
      exact asked

/-- Stopping is a schedule. -/
theorem Stood.stop {discovery : Discovery} {taken : Nat} (stood : Stood discovery taken) :
    ∃ taken', Live.Unfolds { discovery, taken } (discovery.stop.1.map .activity)
      { discovery := discovery.stop.2, taken := taken' } := by
  unfold Discovery.stop
  split
  · exact ⟨taken, .rest _⟩
  · have cancelled := unfolds_cancel discovery taken
    rcases (stood.unfolds cancelled).progress with ⟨taken', progressed⟩
    exact ⟨taken', cancelled.trans progressed⟩

/-- What is posted is still called when a discovery has been dropped, but no callback can ask
for a search any more. -/
theorem Live.unfolds_waiting {live : Live} (dropped : live.isDropped = true)
    (idle : live.calling = []) :
    ∃ last, live.Unfolds (live.discovery.dispatcher.waiting.map fun call =>
        .called call.callback.name call.results call.code) last ∧
      last.isDropped = true ∧ last.discovery.dispatcher.waiting = [] := by
  generalize waits : live.discovery.dispatcher.waiting = waiting
  induction waiting generalizing live with
  | nil => exact ⟨live, .rest live, dropped, waits⟩
  | cons call rest ih =>
      have next : live.turn .call = ([.called call], live.call.2) := by
        simp [Live.turn, Live.call, idle, Dispatcher.next?, waits]
      have after : live.call.2.isDropped = true ∧ live.call.2.calling = [] ∧
          live.call.2.discovery.dispatcher.waiting = rest := by
        simp [Live.call, idle, Dispatcher.next?, waits, dropped]
      rcases ih after.1 after.2.1 after.2.2 with ⟨last, others, ended⟩
      exact ⟨last, (Unfolds.quiet .call rfl next).trans others, ended⟩

/-- Dropping a discovery shows nothing and calls nothing. -/
theorem Live.unfolds_drop (discovery : Discovery) (taken : Nat) :
    ∃ last : Live, Live.Unfolds { discovery, taken } [] last ∧ last.isDropped = true ∧
      last.calling = [] ∧ last.discovery.dispatcher = discovery.dispatcher := by
  have dropped : Unfolds { discovery, taken } _ _ := .quiet .drop rfl rfl
  refine ⟨(Live.drop { discovery, taken }).2, ?_, ?_, ?_, ?_⟩
  · have silent : happenings (Live.drop { discovery, taken }).1 = [] := by
      cases present : discovery.job with
      | none => simp [Live.drop, work, present, happenings]
      | some job =>
          rcases job with ⟨state, token, stage⟩
          cases state <;> simp [Live.drop, work, present, happenings, Job.turn, Job.request?,
            Mark.ofJob, Mark.happening?]
    rw [← silent]
    exact dropped
  · rfl
  · cases present : discovery.job <;> simp [Live.drop, work, present]
  · cases present : discovery.job <;> simp [Live.drop, work, present]

/-- Discarding is a schedule, at the end of which the discovery has been dropped and no call
waits any more. -/
theorem Stood.discard {discovery : Discovery} {taken : Nat} (stood : Stood discovery taken) :
    ∃ last, Live.Unfolds { discovery, taken } discovery.discard last ∧
      last.isDropped = true ∧ last.discovery.dispatcher.waiting = [] := by
  rcases stood.stop with ⟨taken', stopped⟩
  rcases Live.unfolds_drop discovery.stop.2 taken' with ⟨middle, silent, dropped, idle, same⟩
  rcases Live.unfolds_waiting dropped idle with ⟨last, called, ended⟩
  rw [same] at called
  have all := (stopped.trans silent).trans called
  rw [List.append_nil] at all
  exact ⟨last, all, ended⟩

/-- A discovery that is driven works by an orderly schedule. -/
theorem Driven.unfolds {registry : Registry} {identify : Nat → Session} {shown : List Happening}
    {discovery : Discovery} (driven : Driven registry identify shown discovery) :
    ∃ taken, Live.Unfolds { discovery := { registry, identify } } shown { discovery, taken } := by
  have fresh : Stood { registry, identify } 0 := ⟨_, _, _, .fresh registry identify⟩
  induction driven with
  | built => exact ⟨0, .rest _⟩
  | search options callback _ ih =>
      rcases ih with ⟨taken, unfolds⟩
      exact ⟨taken, unfolds.trans (Live.unfolds_search options callback _ taken)⟩
  | settle _ ih =>
      rcases ih with ⟨taken, unfolds⟩
      rcases (fresh.unfolds unfolds).steps _ with ⟨taken', settled⟩
      exact ⟨taken', unfolds.trans settled⟩
  | release released _ ih =>
      rcases ih with ⟨taken, unfolds⟩
      have on := unfolds.trans (unfolds_release released taken)
      rw [List.append_nil] at on
      exact ⟨taken, on⟩
  | stop _ ih =>
      rcases ih with ⟨taken, unfolds⟩
      rcases (fresh.unfolds unfolds).stop with ⟨taken', stopped⟩
      exact ⟨taken', unfolds.trans stopped⟩

/-- A discovery that is driven comes to its account. -/
theorem Driven.account {registry : Registry} {identify : Nat → Session} {shown : List Happening}
    {discovery : Discovery} (driven : Driven registry identify shown discovery) :
    ∃ marks taken settled standing, happenings marks = shown ∧
      Account marks { discovery, taken } settled standing := by
  rcases driven.unfolds with ⟨taken, turns, marks, played, -, same⟩
  rcases (Stands.fresh registry identify).workBy turns with ⟨settled, standing, stands⟩
  rw [played] at stands
  exact ⟨marks, taken, settled, standing, same, stands.account⟩

end BridgeFinder.Discovery
