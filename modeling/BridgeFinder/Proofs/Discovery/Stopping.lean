import BridgeFinder.Discovery.Stopping
import BridgeFinder.Proofs.Discovery.Staged
import BridgeFinder.Proofs.Discovery.Stop

/-!
# Stopping a search that starts

A call to stop that finds the job of a search running, or over, comes in time: when it returns, the
search has ended.  What carries this is that a job which has been launched stays launched, and that
the outcome of every search before the last one has been taken.  A call that finds a job which has
not been launched, or the one of a search that is over, comes too early for the search that is
starting: it returns as if it had not been made, and the search goes on.
-/

namespace BridgeFinder.Discovery

open BridgeFinder.Job (Follows wasCancelled)

/-! ## What a turn can do to the search that was accepted last -/

variable {marks : List Mark} {live : Live} {settled : List (Ask × Call)} {standing : Option Ask}

/-- A job that is engaged in anything follows the run of its methods. -/
theorem Engaged.follows (engaged : Engaged marks live standing)
    {job : Job Activity (List Bridge × Runner)} (present : live.discovery.job = some job) :
    ∃ methods seen, Follows (Runner.ofMethods methods).execute seen job := by
  cases engaged with
  | idle none => simp [none] at present
  | standing callback job_eq follows cancelled going number =>
      obtain rfl := Option.some.inj (job_eq.symm.trans present)
      exact ⟨_, _, follows⟩
  | answered job_eq follows decided posted number =>
      obtain rfl := Option.some.inj (job_eq.symm.trans present)
      exact ⟨_, _, follows⟩

/-- A job that counts as cancelled did so before, unless a request to stop has been accepted. -/
theorem cancelled_of_turn {σ α : Type} {task : Task σ α} {seen : List (Job.Mark σ)} {job : Job σ α}
    (follows : Follows task seen job) {next : Job.Turn}
    (cancelled : (job.turn next).2.state = .cancelled) :
    job.state = .cancelled ∨ wasCancelled (job.turn next).1 = true := by
  rw [(follows.turn next).state_eq_cancelled_iff, Job.wasCancelled_append] at cancelled
  rw [follows.state_eq_cancelled_iff]
  simpa using cancelled

/-- A search whose outcome has been taken is answered. -/
theorem Stands.answered (stands : Stands marks live settled standing) {number : Nat}
    (positive : 0 < number) (taken : number ≤ live.taken) :
    ∃ callback methods results code, .asked ⟨callback, .accepted number methods⟩ ∈ marks ∧
      ⟨callback, results, code⟩ ∈ calls marks ++ live.due ∧ Delivers methods results ∧
        (.cancelled number ∈ marks ∧ code = .stopped ∨
          .cancelled number ∉ marks ∧ code = .success) := by
  have member : number ∈ (asks marks).filterMap Ask.number? := by
    have := stands.taken_le
    rw [stands.numbers, List.mem_range'_1]
    omega
  rcases List.mem_filterMap.mp member with ⟨ask, asked, accepted⟩
  have settled' : ask ∈ settled.map Prod.fst := by
    rcases List.mem_append.mp (stands.ledger.asked.mem_iff.mp asked) with there | stands'
    · exact there
    · cases Option.mem_toList.mp stands'
      cases stands.engaged with
      | standing callback job_eq follows cancelled going next =>
          obtain rfl := Option.some.inj accepted
          omega
  rcases List.mem_map.mp settled' with ⟨⟨other, answer⟩, entry, same⟩
  obtain rfl : other = ask := same
  have called := stands.ledger.called.mem_iff.mp (List.mem_map_of_mem entry)
  rcases List.mem_filterMap.mp asked with ⟨mark, marked, same⟩
  obtain rfl : mark = .asked other := by
    cases mark with
    | asked ask =>
        cases same
        rfl
    | activity | cancelled | called => cases same
  cases stands.ledger.answered _ entry with
  | busy | missing => cases accepted
  | stopped callback cancelled delivers =>
      cases accepted
      exact ⟨callback, _, _, _, marked, called, delivers, .inl ⟨cancelled, rfl⟩⟩
  | success callback cancelled delivers =>
      cases accepted
      exact ⟨callback, _, _, _, marked, called, delivers, .inr ⟨cancelled, rfl⟩⟩

/-- Where every outcome has been taken, no search is running. -/
theorem Engaged.idle_of_taken (engaged : Engaged marks live standing)
    (taken : live.taken = live.discovery.accepted) : live.discovery.isSearching = false := by
  cases engaged with
  | idle none => simp [isSearching, none]
  | standing callback job_eq follows cancelled going number => omega
  | answered job_eq follows decided posted number =>
      rename_i job seen methods
      have halted : job.state ≠ .running := by
        intro running
        simp [(follows.of_running running).2] at decided
      simp [isSearching, job_eq, Job.isRunning, halted]

namespace Staged

variable {marks : List Discovery.Mark} {staged after : Staged} {more : List Mark}

/-- The job of the search that is starting has been published. -/
def IsLate (staged : Staged) : Prop :=
  ∃ search, staged.starting = some search ∧ search.stage.isPublished = true

/-- The job of the search that was accepted last counts as cancelled. -/
def IsCancelled (staged : Staged) : Prop :=
  ∃ job, staged.live.discovery.job = some job ∧ job.state = .cancelled

/-- What a turn can do: it publishes no job, and a job counts as cancelled only when a request to
stop has been accepted; or it publishes one. -/
structure Stays (staged : Staged) (more : List Mark) (after : Staged) : Prop where
  accepted : after.live.discovery.accepted = staged.live.discovery.accepted
  taken : staged.live.taken ≤ after.live.taken
  late : after.IsLate → staged.IsLate
  present : after.live.discovery.job.isSome = true → staged.live.discovery.job.isSome = true
  cancelled : after.IsCancelled →
    staged.IsCancelled ∨ .cancelled staged.live.discovery.accepted ∈ seen more

/-- A turn publishes the job of the next search. -/
structure Publishes (staged after : Staged) : Prop where
  accepted : after.live.discovery.accepted = staged.live.discovery.accepted + 1
  taken : after.live.taken = staged.live.taken
  cancelled : ¬ after.IsCancelled

/-- Where the job does not change, and no search is published. -/
theorem Stays.of_eq (accepted : after.live.discovery.accepted = staged.live.discovery.accepted)
    (taken : after.live.taken = staged.live.taken)
    (job : after.live.discovery.job = staged.live.discovery.job)
    (late : after.IsLate → staged.IsLate) : Stays staged more after where
  accepted := accepted
  taken := Nat.le_of_eq taken.symm
  late := late
  present := by rw [job]; exact id
  cancelled := by
    rintro ⟨next, present, cancelled⟩
    exact .inl ⟨next, job.symm.trans present, cancelled⟩

theorem stays_enter (options : Options) (callback : Callback) (isNested : Bool)
    (staged : Staged) :
    Stays staged (staged.enter options callback isNested).1
      (staged.enter options callback isNested).2 := by
  unfold enter reserve
  cases staged.live.discovery.parked with
  | some other => exact .of_eq rfl rfl rfl id
  | none =>
      refine .of_eq rfl rfl rfl ?_
      rintro ⟨search, starting, published⟩
      cases starting
      cases published

theorem stays_publish (methods : List Method) (isNested : Bool) {callback : Callback}
    (parked : staged.live.discovery.parked = some callback) :
    Stays staged (staged.publish methods isNested).1 (staged.publish methods isNested).2 ∨
      Publishes staged (staged.publish methods isNested).2 := by
  unfold publish
  cases methods with
  | nil =>
      left
      simp only [withdraw, parked]
      refine .of_eq rfl rfl rfl ?_
      rintro ⟨search, starting, -⟩
      cases starting
  | cons method rest =>
      right
      refine ⟨rfl, rfl, ?_⟩
      rintro ⟨job, present, cancelled⟩
      cases present
      cases cancelled

/-- Of the sections of a search, only one publishes a job. -/
theorem stays_advance (holds : Holds marks staged) :
    Stays staged staged.advance.1 staged.advance.2 ∨ Publishes staged staged.advance.2 := by
  unfold advance
  cases holds with
  | idle starting stands =>
      simp only [starting]
      exact .inl (.of_eq rfl rfl rfl id)
  | @early settled search callback starting stage present parked stands =>
      rcases search with ⟨stage', isNested⟩
      simp only [starting]
      cases stage' with
      | reserved options =>
          left
          refine .of_eq rfl rfl rfl ?_
          rintro ⟨search, starting, published⟩
          cases starting
          cases published
      | resolved methods => exact stays_publish methods isNested parked
      | published | announced => cases stage
  | @late settled search ask job starting stage present published new stands =>
      rcases search with ⟨stage', isNested⟩
      simp only [starting]
      left
      cases stage' with
      | reserved | resolved => cases stage
      | published => exact .of_eq rfl rfl rfl fun _ => ⟨_, starting, rfl⟩
      | announced =>
          refine ⟨rfl, Nat.le_refl _, ?_, fun _ => by simp [published], ?_⟩
          · rintro ⟨search, starting, -⟩
            cases starting
          · rintro ⟨job', launched, cancelled⟩
            rcases new with ⟨task, rfl⟩
            simp only [Discovery.launch, published, Option.map_some] at launched
            cases launched
            cases cancelled

/-- What becomes of a job that takes a turn. -/
theorem Holds.cancelled_of_work (holds : Holds marks staged) (next : Job.Turn)
    {job : Job Activity (List Bridge × Runner)}
    (present : (staged.live.work next).2.discovery.job = some job)
    (cancelled : job.state = .cancelled) :
    staged.IsCancelled ∨
      .cancelled staged.live.discovery.accepted ∈ (staged.live.work next).1 := by
  unfold Live.work at present ⊢
  cases before : staged.live.discovery.job with
  | none => simp [before] at present
  | some earlier =>
      simp only [before] at present ⊢
      cases present
      have done : earlier.state = .cancelled ∨ wasCancelled (earlier.turn next).1 = true := by
        cases holds with
        | idle starting stands =>
            rcases stands.engaged.follows before with ⟨methods, seen, follows⟩
            exact cancelled_of_turn follows cancelled
        | early starting stage slot parked stands =>
            rcases stands.engaged.follows before with ⟨methods, seen, follows⟩
            exact cancelled_of_turn follows cancelled
        | late starting stage slot published new stands =>
            rcases new with ⟨task, rfl⟩
            obtain rfl := Option.some.inj (published.symm.trans before)
            rw [turn_new] at cancelled
            cases cancelled
      rcases done with was | now
      · exact .inl ⟨earlier, before, was⟩
      · exact .inr (cancelled_mem_ofJob.mpr ⟨rfl, now⟩)

/-- A turn of the job publishes no other. -/
theorem Holds.stays_work (holds : Holds marks staged) (next : Job.Turn) :
    Stays staged (staged.lift (staged.live.work next)).1
      (staged.lift (staged.live.work next)).2 := by
  have kept : (staged.live.work next).2.discovery.accepted = staged.live.discovery.accepted ∧
      (staged.live.work next).2.taken = staged.live.taken := by
    unfold Live.work
    split <;> exact ⟨rfl, rfl⟩
  have present : (staged.live.work next).2.discovery.job.isSome = true →
      staged.live.discovery.job.isSome = true := by
    unfold Live.work
    cases before : staged.live.discovery.job with
    | none => simp [before]
    | some job => simp
  refine ⟨kept.1, Nat.le_of_eq kept.2.symm, id, present, ?_⟩
  rintro ⟨job, present, cancelled⟩
  simp only [Staged.lift, seen_map]
  exact holds.cancelled_of_work next present cancelled

/-- The outcome of the search that was accepted last is taken once. -/
theorem Holds.taken_le (holds : Holds marks staged) :
    staged.live.taken ≤ staged.live.discovery.accepted := by
  cases holds with
  | idle starting stands => exact stands.taken_le
  | early starting stage present parked stands => exact stands.taken_le
  | late starting stage present published new stands => exact stands.taken_le

/-- What a discovery does of itself publishes no job. -/
theorem Holds.stays_lift (holds : Holds marks staged) {next : Discovery.Turn}
    (plain : next.asks = false) :
    Stays staged (staged.lift (staged.live.turn next)).1
      (staged.lift (staged.live.turn next)).2 := by
  cases next with
  | search | nested => cases plain
  | job next => exact holds.stays_work next
  | drop =>
      simp only [Live.turn, Live.drop]
      split
      · exact .of_eq rfl rfl rfl id
      · rcases holds.stays_work .request with ⟨accepted, taken, late, present, cancelled⟩
        exact ⟨accepted, taken, late, present, cancelled⟩
  | take =>
      simp only [Live.turn, Live.take]
      split
      · exact .of_eq rfl rfl rfl id
      · split
        · exact .of_eq rfl rfl rfl id
        · exact ⟨rfl, holds.taken_le, id, id, fun cancelled => .inl cancelled⟩
  | announce place =>
      simp only [Live.turn, Live.announce]
      split
      · exact .of_eq rfl rfl rfl id
      · split <;> exact .of_eq rfl rfl rfl id
  | post place =>
      simp only [Live.turn, Live.post]
      split
      · exact .of_eq rfl rfl rfl id
      · rename_i first _
        split
        · rcases exists_hand_eq first.reporter staged.live.discovery with ⟨waiting, handed⟩
          rw [handed]
          obtain ⟨job, closed, states⟩ := exists_close_eq first.number { staged.live.discovery with
            dispatcher := { staged.live.discovery.dispatcher with waiting } }
          rw [closed]
          refine ⟨rfl, Nat.le_refl _, id, ?_, ?_⟩
          · intro some
            rcases Option.isSome_iff_exists.mp some with ⟨next, present⟩
            rcases states next present with ⟨before, was, -⟩
            exact Option.isSome_iff_exists.mpr ⟨before, was⟩
          · rintro ⟨next, present, cancelled⟩
            rcases states next present with ⟨before, was, same⟩
            exact .inl ⟨before, was, same.trans cancelled⟩
        · exact .of_eq rfl rfl rfl id
  | call =>
      simp only [Live.turn, Live.call]
      split <;> exact .of_eq rfl rfl rfl id
  | shut =>
      simp only [Live.turn, Live.shut]
      split <;> exact .of_eq rfl rfl rfl id

/-- Every turn either publishes a job or does not. -/
theorem Holds.stays_turn (holds : Holds marks staged) (next : Turn) :
    Stays staged (staged.turn next).1 (staged.turn next).2 ∨
      Publishes staged (staged.turn next).2 := by
  cases next with
  | advance => exact stays_advance holds
  | searching | request => exact .inl (.of_eq rfl rfl rfl id)
  | live next =>
      left
      cases next with
      | search options callback =>
          cases callback with
          | none => exact .of_eq rfl rfl rfl id
          | some callback =>
              simp only [Staged.turn]
              split
              · exact .of_eq rfl rfl rfl id
              · exact stays_enter options callback false staged
      | nested =>
          simp only [Staged.turn]
          split
          · rename_i options callback rest _ _
            rcases stays_enter options callback true
              { staged with live := { staged.live with calling := rest } } with
              ⟨accepted, taken, late, present, cancelled⟩
            exact ⟨accepted, taken, late, present, cancelled⟩
          · exact .of_eq rfl rfl rfl id
      | call =>
          simp only [Staged.turn]
          split
          · exact .of_eq rfl rfl rfl id
          · show Stays staged (staged.lift (staged.live.turn .call)).1 _
            exact holds.stays_lift rfl
      | drop =>
          simp only [Staged.turn]
          split
          · exact .of_eq rfl rfl rfl id
          · show Stays staged (staged.lift (staged.live.turn .drop)).1 _
            exact holds.stays_lift rfl
      | job | take | announce | post | shut => exact holds.stays_lift rfl

/-- The discovery holds, and what its job looks like agrees with what could be seen of it. -/
structure Steady (marks : List Discovery.Mark) (staged : Staged) : Prop where
  holds : Holds marks staged
  /-- The job counts as cancelled only if a request to stop has been accepted. -/
  honest : staged.IsCancelled → .cancelled staged.live.discovery.accepted ∈ marks
  /-- Searches are numbered from one on. -/
  positive : staged.live.discovery.job.isSome = true → 0 < staged.live.discovery.accepted

theorem Steady.fresh (registry : Registry) (identify : Nat → Session) :
    Steady [] (fresh registry identify) where
  holds := .fresh registry identify
  honest := nofun
  positive := nofun

theorem Steady.step (steady : Steady marks staged) (holds : Holds (marks ++ seen more) after)
    (step : Stays staged more after ∨ Publishes staged after) :
    Steady (marks ++ seen more) after := by
  rcases step with stays | publishes
  · refine ⟨holds, ?_, ?_⟩
    · intro cancelled
      rw [stays.accepted]
      rcases stays.cancelled cancelled with was | now
      · exact List.mem_append_left _ (steady.honest was)
      · exact List.mem_append_right _ now
    · intro present
      rw [stays.accepted]
      exact steady.positive (stays.present present)
  · refine ⟨holds, fun cancelled => absurd cancelled publishes.cancelled, ?_⟩
    intro _
    rw [publishes.accepted]
    exact Nat.succ_pos _

theorem Steady.workBy {marks : List Mark} (steady : Steady (seen marks) staged)
    (turns : List Turn) :
    Steady (seen (marks ++ (staged.workBy turns).1)) (staged.workBy turns).2 := by
  have keeps (marks : List Mark) (staged : Staged) (next : Turn)
      (steady : Steady (seen marks) staged) :
      Steady (seen (marks ++ (staged.turn next).1)) (staged.turn next).2 := by
    rw [seen_append]
    exact steady.step (steady.holds.turn next) (steady.holds.stays_turn next)
  exact play_preserves keeps turns steady

end Staged

namespace Stopping

open Staged (Steady Holds Stays Publishes seen)

/-- The search with the number has been launched. -/
structure Begun (number : Nat) (staged : Staged) : Prop where
  positive : 0 < number
  accepted : number ≤ staged.live.discovery.accepted
  launched : number = staged.live.discovery.accepted → ¬ staged.IsLate

/-- What a call to stop has found a job in, unless it was too early for it. -/
def Finds (marks : List Mark) (number : Nat) (state : Job.State) : Prop :=
  state ≠ .completed → .cancelled number ∈ marks

/-- What is known from what a call to stop has come to. -/
def Knows (marks : List Mark) (staged : Staged) : StopCall → Prop
  | .made => True
  | .holds number => 0 < number ∧ number ≤ staged.live.discovery.accepted
  | .fires number => Begun number staged ∧ .cancelled number ∈ marks
  | .waits number found => ∀ state, found = some state → state ≠ .notStarted →
      Begun number staged ∧ Finds marks number state
  | .returned found => ∀ number state, found = some (number, state) → state ≠ .notStarted →
      (0 < number ∧ number ≤ staged.live.taken) ∧ Finds marks number state

variable {marks : List Mark} {staged after : Staged} {more : List Staged.Mark} {call : StopCall}
  {number : Nat}

theorem Begun.step (begun : Begun number staged)
    (step : Stays staged more after ∨ Publishes staged after) : Begun number after := by
  rcases begun with ⟨positive, accepted, launched⟩
  rcases step with stays | publishes
  · refine ⟨positive, ?_, ?_⟩
    · rwa [stays.accepted]
    · rw [stays.accepted]
      exact fun last late => launched last (stays.late late)
  · have next := publishes.accepted
    refine ⟨positive, ?_, ?_⟩
    · omega
    · intro last
      omega

theorem Knows.step (knows : Knows marks staged call)
    (step : Stays staged more after ∨ Publishes staged after) :
    Knows (marks ++ seen more) after call := by
  have finds {number : Nat} {state : Job.State} (finds : Finds marks number state) :
      Finds (marks ++ seen more) number state :=
    fun state => List.mem_append_left _ (finds state)
  have accepted : staged.live.discovery.accepted ≤ after.live.discovery.accepted ∧
      staged.live.taken ≤ after.live.taken := by
    rcases step with stays | publishes
    · exact ⟨Nat.le_of_eq stays.accepted.symm, stays.taken⟩
    · exact ⟨by rw [publishes.accepted]; exact Nat.le_succ _, Nat.le_of_eq publishes.taken.symm⟩
  cases call with
  | made => trivial
  | holds number => exact ⟨knows.1, Nat.le_trans knows.2 accepted.1⟩
  | fires number => exact ⟨knows.1.step step, List.mem_append_left _ knows.2⟩
  | waits number found =>
      intro state same begun
      rcases knows state same begun with ⟨begun, found⟩
      exact ⟨begun.step step, finds found⟩
  | returned found =>
      intro number state same begun
      rcases knows number state same begun with ⟨⟨positive, taken⟩, found⟩
      exact ⟨⟨positive, Nat.le_trans taken accepted.2⟩, finds found⟩

/-- Letting a job take a turn is a turn of the discovery, or nothing. -/
theorem Holds.stays_of_work (holds : Holds marks staged) (number : Nat) (next : Job.Turn) :
    Holds (marks ++ seen (work number next staged).1) (work number next staged).2 ∧
      Stays staged (work number next staged).1 (work number next staged).2 := by
  unfold work
  split
  · have after : Holds (marks ++ (staged.live.turn (.job next)).1)
        { staged with live := (staged.live.turn (.job next)).2 } := holds.lift rfl nofun
    refine ⟨?_, holds.stays_work next⟩
    simp only [Staged.lift, Staged.seen_map]
    exact after
  · exact ⟨by simpa using holds, .of_eq rfl rfl rfl id⟩

/-- A discovery with a call to stop is in order. -/
structure Sound (marks : List Mark) (stopping : Stopping) : Prop where
  steady : Steady marks stopping.staged
  knows : Knows marks stopping.staged stopping.call

variable {stopping : Stopping}

/-- A request to stop that finds the job running is accepted. -/
theorem cancelled_mem_request {job : Job Activity (List Bridge × Runner)}
    (present : staged.live.discovery.job = some job) (running : job.state = .running) :
    .cancelled staged.live.discovery.accepted ∈
      seen (work staged.live.discovery.accepted .request staged).1 := by
  rcases job with ⟨state, token, stage⟩
  obtain rfl : state = .running := running
  simp [work, Staged.lift, Live.work, present, Job.turn, Job.request?, Mark.ofJob]

theorem state?_eq_some {state : Job.State} (found : state? number staged = some state) :
    number = staged.live.discovery.accepted ∧
      ∃ job, staged.live.discovery.job = some job ∧ job.state = state := by
  unfold state? at found
  split at found
  · rename_i last
    exact ⟨last, Option.map_eq_some_iff.mp found⟩
  · cases found

/-- A job that has been started is that of a search that has been launched. -/
theorem Holds.begun (holds : Holds marks staged) (positive : 0 < number) {state : Job.State}
    (found : state? number staged = some state) (started : state ≠ .notStarted) :
    Begun number staged := by
  rcases state?_eq_some found with ⟨rfl, job, present, rfl⟩
  refine ⟨positive, Nat.le_refl _, ?_⟩
  rintro - ⟨search, starting, published⟩
  cases holds with
  | idle none => simp [none] at starting
  | early starting' stage =>
      obtain rfl := Option.some.inj (starting.symm.trans starting')
      simp [published] at stage
  | late starting' stage slot job_eq new stands =>
      obtain rfl := Option.some.inj (present.symm.trans job_eq)
      rcases new with ⟨task, rfl⟩
      exact started rfl

/-- A call to stop that has taken hold of a job asks it to stop. -/
theorem Sound.request (steady : Steady marks staged) (positive : 0 < number) :
    Sound (marks ++ seen (Stopping.stop ⟨staged, .holds number⟩).1)
      (Stopping.stop ⟨staged, .holds number⟩).2 := by
  rcases Holds.stays_of_work steady.holds number .request with ⟨holds, stays⟩
  refine ⟨steady.step holds (.inl stays), ?_⟩
  simp only [Stopping.stop]
  -- a job that has come to a stop before is over, or a request to stop it was accepted then
  by_cases running : state? number staged = some .running
  · have begun := Holds.begun steady.holds positive running nofun
    rcases state?_eq_some running with ⟨rfl, job, present, state⟩
    rw [if_pos running]
    exact ⟨begun.step (.inl stays), List.mem_append_right _ (cancelled_mem_request present state)⟩
  · rw [if_neg running]
    intro state found started
    refine ⟨(Holds.begun steady.holds positive found started).step (.inl stays), ?_⟩
    intro ended
    rcases state?_eq_some found with ⟨rfl, job, present, rfl⟩
    apply List.mem_append_left
    apply steady.honest
    refine ⟨job, present, ?_⟩
    cases state : job.state with
    | notStarted => exact absurd state started
    | running => simp [found, state] at running
    | cancelled => rfl
    | completed => exact absurd state ended

/-- The outcome of a search that was launched has been taken when its job is over. -/
theorem Begun.taken_of_isOver (begun : Begun number staged) (holds : Holds marks staged)
    (isOver : isOver number staged = true) : number ≤ staged.live.taken := by
  rcases begun with ⟨positive, accepted, launched⟩
  unfold Stopping.isOver at isOver
  cases holds with
  | idle starting stands =>
      cases stands.engaged with
      | idle none zero start => omega
      | answered job_eq follows decided posted same => omega
      | standing callback job_eq follows cancelled going same =>
          split at isOver
          · have started := follows.state_ne_notStarted
            simp [Discovery.isOver, job_eq, Job.isOver, going, started] at isOver
          · omega
  | early starting stage present parked stands =>
      have same : staged.live.taken = staged.live.discovery.accepted := stands.engaged.taken_eq
      omega
  | late starting stage present published new stands =>
      have next : staged.live.discovery.accepted = staged.live.taken + 1 := stands.engaged.last
      have earlier : number ≠ staged.live.discovery.accepted :=
        fun last => launched last ⟨_, starting, stage⟩
      omega

theorem Sound.stop (sound : Sound marks stopping) :
    Sound (marks ++ seen stopping.stop.1) stopping.stop.2 := by
  rcases stopping with ⟨staged, call⟩
  rcases sound with ⟨steady, knows⟩
  cases call with
  | made =>
      simp only [Stopping.stop, Staged.seen_nil, List.append_nil]
      refine ⟨steady, ?_⟩
      cases present : staged.live.discovery.job.isSome with
      | true => exact ⟨steady.positive present, Nat.le_refl _⟩
      | false => nofun
  | holds number => exact Sound.request steady knows.1
  | fires number =>
      rcases Holds.stays_of_work steady.holds number .fire with ⟨holds, stays⟩
      refine ⟨steady.step holds (.inl stays), ?_⟩
      rintro _ ⟨⟩ -
      exact ⟨knows.1.step (.inl stays), fun _ => List.mem_append_left _ knows.2⟩
  | waits number found =>
      simp only [Stopping.stop, Staged.seen_nil, List.append_nil]
      refine ⟨steady, ?_⟩
      by_cases returns : isOver number staged = true
      · simp only [returns, if_true]
        intro number' state same started
        rcases Option.map_eq_some_iff.mp same with ⟨state', found, pair⟩
        cases pair
        rcases knows state found started with ⟨begun, finds⟩
        exact ⟨⟨begun.positive, begun.taken_of_isOver steady.holds returns⟩, finds⟩
      · simp only [returns]
        exact knows
  | returned found =>
      simp only [Stopping.stop, Staged.seen_nil, List.append_nil]
      exact ⟨steady, knows⟩

theorem Sound.turn (sound : Sound marks stopping) (next : Turn) :
    Sound (marks ++ seen (stopping.turn next).1) (stopping.turn next).2 := by
  cases next with
  | stop => exact sound.stop
  | other next =>
      have step := sound.steady.holds.stays_turn next
      exact ⟨sound.steady.step (sound.steady.holds.turn next) step, sound.knows.step step⟩

theorem Sound.workBy {marks : List Staged.Mark} (sound : Sound (seen marks) stopping)
    (turns : List Turn) :
    Sound (seen (marks ++ (stopping.workBy turns).1)) (stopping.workBy turns).2 := by
  have keeps (marks : List Staged.Mark) (stopping : Stopping) (next : Turn)
      (sound : Sound (seen marks) stopping) :
      Sound (seen (marks ++ (stopping.turn next).1)) (stopping.turn next).2 := by
    rw [Staged.seen_append]
    exact sound.turn next
  exact play_preserves keeps turns sound

/-! ## A call to stop that comes in time -/

/-- A search has ended: it does not run any more, and its callback has been called or is about to
be. -/
structure Ended (marks : List Mark) (live : Live) (number : Nat) : Prop where
  /-- No search is running, unless another one has been accepted since. -/
  idle : number < live.discovery.accepted ∨
    number = live.discovery.accepted ∧ live.discovery.isSearching = false
  /-- The search counts as stopped if a request to stop it was accepted. -/
  answered : ∃ callback methods results code, .asked ⟨callback, .accepted number methods⟩ ∈ marks ∧
    ⟨callback, results, code⟩ ∈ calls marks ++ live.due ∧ Delivers methods results ∧
      (.cancelled number ∈ marks ∧ code = .stopped ∨ .cancelled number ∉ marks ∧ code = .success)

theorem Holds.ended (holds : Holds marks staged) (positive : 0 < number)
    (taken : number ≤ staged.live.taken) : Ended marks staged.live number := by
  have last := holds.taken_le
  constructor
  · rcases Nat.lt_or_eq_of_le (Nat.le_trans taken last) with earlier | same
    · exact .inl earlier
    · refine .inr ⟨same, ?_⟩
      have all : staged.live.taken = staged.live.discovery.accepted := by omega
      cases holds with
      | idle starting stands => exact stands.engaged.idle_of_taken all
      | early starting stage present parked stands => exact stands.engaged.idle_of_taken all
      | late starting stage present published new stands =>
          have next : staged.live.discovery.accepted = staged.live.taken + 1 := stands.engaged.last
          omega
  · cases holds with
    | idle starting stands => exact stands.answered positive taken
    | early starting stage present parked stands => exact stands.answered positive taken
    | late starting stage present published new stands => exact stands.answered positive taken

/-! ## A call to stop that comes too early -/

/-- A call that has found a job running has done so for good. -/
theorem hasStopped_turn (stopped : stopping.call.hasStopped = true) (next : Turn) :
    (stopping.turn next).2.call.hasStopped = true := by
  rcases stopping with ⟨staged, call⟩
  cases next with
  | other next => exact stopped
  | stop =>
      cases call with
      | made | holds => cases stopped
      | fires number => rfl
      | waits number found =>
          rcases found with _ | ⟨_ | _ | _ | _⟩ <;> cases stopped
          simp only [turn, stop]
          split <;> rfl
      | returned found => exact stopped

theorem hasStopped_workBy (stopped : stopping.call.hasStopped = true) (turns : List Turn) :
    (stopping.workBy turns).2.call.hasStopped = true := by
  induction turns generalizing stopping with
  | nil => exact stopped
  | cons next rest ih => exact ih (hasStopped_turn stopped next)

/-- A job that does not run is not changed by a request to stop. -/
theorem work_request (halted : state? number staged ≠ some .running) :
    work number .request staged = ([], staged) := by
  unfold work
  split
  · rename_i last
    have refused : staged.live.work .request = ([], staged.live) := by
      apply Live.work_request
      intro job present running
      simp [state?, last, present, running] at halted
    rw [refused]
    rfl
  · rfl

/-- As long as the call has not found a job running, its sections change nothing. -/
theorem stop_of_not (unstopped : stopping.stop.2.call.hasStopped = false) :
    ∃ call, stopping.stop = ([], { stopping with call }) := by
  rcases stopping with ⟨staged, call⟩
  cases call with
  | made => exact ⟨_, rfl⟩
  | waits number found => exact ⟨_, rfl⟩
  | returned found => exact ⟨_, rfl⟩
  | fires number => cases unstopped
  | holds number =>
      by_cases running : state? number staged = some .running
      · simp [stop, running, StopCall.hasStopped] at unstopped
      · simp only [stop, work_request running]
        exact ⟨_, rfl⟩

/-- A call to stop that has not found a job running might as well not have been made. -/
theorem workBy_others (turns : List Turn)
    (unstopped : (stopping.workBy turns).2.call.hasStopped = false) :
    stopping.staged.workBy (turns.filterMap Turn.other?) =
      ((stopping.workBy turns).1, (stopping.workBy turns).2.staged) := by
  induction turns generalizing stopping with
  | nil => rfl
  | cons next rest ih =>
      have later : (stopping.turn next).2.staged.workBy (rest.filterMap Turn.other?) =
          (((stopping.turn next).2.workBy rest).1, ((stopping.turn next).2.workBy rest).2.staged) :=
        ih unstopped
      cases next with
      | other next =>
          have cons : (Turn.other next :: rest).filterMap Turn.other? =
              next :: rest.filterMap Turn.other? := rfl
          rw [cons, Staged.workBy, play_cons, workBy, play_cons]
          exact congrArg (fun work => ((stopping.staged.turn next).1 ++ work.1, work.2)) later
      | stop =>
          have silent : stopping.stop.2.call.hasStopped = false := by
            by_contra stopped
            have still := hasStopped_workBy (by simpa using stopped) rest
            exact absurd (unstopped.symm.trans still) Bool.false_ne_true
          rcases stop_of_not silent with ⟨call, same⟩
          have taken : stopping.turn .stop = ([], { stopping with call }) := same
          have cons : (Turn.stop :: rest).filterMap Turn.other? = rest.filterMap Turn.other? := rfl
          rw [cons, workBy, play_cons, taken]
          rw [taken] at later
          exact later

/-- The account of a call to stop. -/
structure Account (reached : List Staged.Mark × Staged) (turns : List Turn)
    (work : List Staged.Mark × Stopping) : Prop where
  /-- When a call returns that has found the job of a search started, that search has ended; and it
  has been stopped, unless it had ended by itself when the call found it. -/
  inTime : ∀ number state, work.2.call = .returned (some (number, state)) →
    state ≠ .notStarted →
      Ended (seen (reached.1 ++ work.1)) work.2.staged.live number ∧
        Finds (seen (reached.1 ++ work.1)) number state
  /-- A call that has found no job running might as well not have been made. -/
  early : work.2.call.hasStopped = false →
    reached.2.workBy (turns.filterMap Turn.other?) = (work.1, work.2.staged)

/-- Whenever a call to stop is made, and whatever comes between its sections, it comes to its
account: it depends on what it finds whether it does anything. -/
theorem stopping_account (registry : Registry) (identify : Nat → Session)
    (before : List Staged.Turn) (turns : List Turn) :
    let reached := (Staged.fresh registry identify).workBy before
    Account reached turns (workBy turns { staged := reached.2 }) := by
  intro reached
  have fresh : Steady (seen []) (Staged.fresh registry identify) := .fresh registry identify
  have steady : Steady (seen reached.1) reached.2 := fresh.workBy before
  have start : Sound (seen reached.1) { staged := reached.2 } := ⟨steady, trivial⟩
  have sound := start.workBy turns
  constructor
  · intro number state returned started
    have knows := sound.knows
    rw [returned] at knows
    rcases knows number state rfl started with ⟨⟨positive, taken⟩, finds⟩
    exact ⟨Holds.ended sound.steady.holds positive taken, finds⟩
  · exact workBy_others turns

/-- A call to stop that comes between publishing a job and launching it returns at once, and the
search runs. -/
theorem stop_before_launch :
    let reached := (Staged.fresh hanging fun _ => default).workBy
      [.live (.search .default (some (.mk "first" []))), .advance, .advance]
    let work := workBy [.stop, .stop, .stop, .other .advance, .other .advance]
      { staged := reached.2 }
    work.2.call = .returned (some (1, .notStarted)) ∧ work.2.staged.starting.isNone = true ∧
      work.2.staged.live.discovery.isSearching = true := by
  decide

end Stopping

end BridgeFinder.Discovery
