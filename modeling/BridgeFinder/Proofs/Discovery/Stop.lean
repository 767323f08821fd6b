import BridgeFinder.Proofs.Discovery.Account
import BridgeFinder.Proofs.Discovery.Orderly
import BridgeFinder.Proofs.Discovery.Recorded
import BridgeFinder.Proofs.Runner.Cut

/-!
# Stopping a discovery

A call to stop asks the job of the search that was accepted last to stop, and then waits until
this job is over, which it is when the outcome of the search has been posted.  In the meantime
anything may happen, down to another search being accepted.
-/

namespace BridgeFinder.Discovery

open BridgeFinder.Job (Follows Recalls wasCancelled)

/-! ## A job that does not run any more -/

namespace Live

/-- What stays of a discovery when a turn is taken, by which a search may be asked for.  Unless
another search is accepted, its job runs only if it did before. -/
structure Keeps (asks : Bool) (live next : Live) : Prop where
  registry : next.discovery.registry = live.discovery.registry
  identify : next.discovery.identify = live.discovery.identify
  job : asks = true ∧ next.discovery.accepted = live.discovery.accepted + 1 ∨
    next.discovery.accepted = live.discovery.accepted ∧
      ∀ job, next.discovery.job = some job → job.state = .running →
        ∃ before, live.discovery.job = some before ∧ before.state = .running
  /-- An outcome that is still to be reported was before, or it has just been taken. -/
  finishing : ∀ finishing ∈ next.finishing, finishing.announced = false →
    finishing ∈ live.finishing ∨ finishing.number = next.discovery.accepted

variable {number : Nat} {asks : Bool} {live next : Live}

/-- Where only calls are posted and made, everything else stays. -/
theorem Keeps.of_eq (registry : next.discovery.registry = live.discovery.registry)
    (identify : next.discovery.identify = live.discovery.identify)
    (accepted : next.discovery.accepted = live.discovery.accepted)
    (job : next.discovery.job = live.discovery.job)
    (finishing : next.finishing = live.finishing) : Keeps asks live next where
  registry := registry
  identify := identify
  job := by
    right
    apply And.intro accepted
    intro after present running
    exact ⟨after, job.symm.trans present, running⟩
  finishing := by
    intro first member _
    exact .inl (finishing ▸ member)

theorem Keeps.refl (live : Live) : Keeps asks live live :=
  .of_eq rfl rfl rfl rfl rfl

theorem keeps_ask (options : Options) (callback : Option Callback) (live : Live) :
    Keeps true live (live.ask options callback).2 := by
  cases callback with
  | none => exact .refl live
  | some callback =>
      unfold ask
      cases verdict : live.discovery.verdict options with
      | busy =>
          rw [searchWith_of_busy verdict]
          exact .of_eq rfl rfl rfl rfl rfl
      | missing =>
          rw [searchWith_of_missing verdict]
          exact .of_eq rfl rfl rfl rfl rfl
      | accepted number methods =>
          rw [searchWith_of_accepted verdict]
          exact ⟨rfl, rfl, .inl ⟨rfl, rfl⟩, fun _ member _ => .inl member⟩

/-- No turn of its own lets a job run again. -/
theorem keeps_work (next : Job.Turn) (live : Live) : Keeps asks live (live.work next).2 := by
  unfold work
  cases present : live.discovery.job with
  | none => exact .refl live
  | some job =>
      refine ⟨rfl, rfl, .inr ⟨rfl, ?_⟩, fun _ member _ => .inl member⟩
      rintro _ ⟨⟩ running
      exact ⟨job, present, (Job.step_turn next job).running running⟩

theorem keeps_turn (next : Turn) (live : Live) : Keeps next.asks live (live.turn next).2 := by
  cases next with
  | search options callback =>
      simp only [turn]
      split
      · exact .refl live
      · exact live.keeps_ask options callback
  | nested =>
      simp only [turn, nested]
      split
      · exact .refl live
      · rename_i options callback rest calling
        rcases keeps_ask options (some callback) { live with calling := rest } with
          ⟨registry, identify, job, finishing⟩
        exact ⟨registry, identify, job, finishing⟩
  | job next => exact live.keeps_work next
  | drop =>
      simp only [turn, drop]
      split
      · exact .refl live
      · rcases live.keeps_work .request with ⟨registry, identify, job, finishing⟩
        exact ⟨registry, identify, job, finishing⟩
  | take =>
      simp only [turn, take]
      split
      · exact .refl live
      · split
        · exact .refl live
        · refine ⟨rfl, rfl, .inr ⟨rfl, fun job present running => ⟨job, present, running⟩⟩, ?_⟩
          intro first member _
          rcases List.mem_append.mp member with before | new
          · exact .inl before
          · rw [List.mem_singleton.mp new]
            exact .inr rfl
  | announce place =>
      simp only [turn, announce]
      split
      · exact .refl live
      · split
        · exact .refl live
        · refine ⟨rfl, rfl, .inr ⟨rfl, fun job present running => ⟨job, present, running⟩⟩, ?_⟩
          intro first member unannounced
          rcases List.mem_or_eq_of_mem_set member with before | rfl
          · exact .inl before
          · cases unannounced
  | post place =>
      simp only [turn, post]
      split
      · exact .refl live
      · rename_i first _
        split
        · rcases exists_hand_eq first.reporter live.discovery with ⟨waiting, handed⟩
          rw [handed]
          obtain ⟨job, closed, states⟩ := exists_close_eq first.number { live.discovery with
            dispatcher := { live.discovery.dispatcher with waiting } }
          rw [closed]
          refine ⟨rfl, rfl, .inr ⟨rfl, ?_⟩,
            fun _ member _ => .inl (List.mem_of_mem_eraseIdx member)⟩
          intro next present running
          rcases states next present with ⟨before, was, same⟩
          exact ⟨before, was, same.trans running⟩
        · exact .refl live
  | call =>
      simp only [turn, call]
      split
      · exact .of_eq rfl rfl rfl rfl rfl
      · exact .refl live
  | shut =>
      simp only [turn, shut]
      split
      · exact .of_eq rfl rfl rfl rfl rfl
      · exact .refl live

/-- A schedule by which no search is asked for is orderly. -/
theorem orderly_quiet {turns : List Turn} (quiet : ∀ next ∈ turns, next.asks = false) :
    live.Orderly turns := by
  induction turns generalizing live with
  | nil => trivial
  | cons next rest ih =>
      rcases List.forall_mem_cons.mp quiet with ⟨here, later⟩
      refine ⟨fun grown => ?_, ih later⟩
      rcases (live.keeps_turn next).job with ⟨asked, -⟩ | ⟨same, -⟩
      · rw [here] at asked
        cases asked
      · exact absurd same (Nat.ne_of_gt grown)

/-- A search does not run any more: it has been stopped or has ended, or another one has been
accepted since. -/
def Halts (number : Nat) (live : Live) : Prop :=
  number < live.discovery.accepted ∨ number = live.discovery.accepted ∧
    ∀ job, live.discovery.job = some job → job.state ≠ .running

theorem Halts.turn (halts : live.Halts number) (next : Turn) : (live.turn next).2.Halts number := by
  rcases (live.keeps_turn next).job with ⟨-, later⟩ | ⟨same, before⟩
  · left
    rcases halts with earlier | ⟨rfl, -⟩ <;> omega
  · rw [Halts, same]
    apply halts.imp id
    rintro ⟨last, halted⟩
    apply And.intro last
    intro job present running
    rcases before job present running with ⟨earlier, was, ran⟩
    exact halted earlier was ran

theorem Halts.workBy (halts : live.Halts number) (turns : List Turn) :
    (live.workBy turns).2.Halts number := by
  induction turns generalizing live with
  | nil => exact halts
  | cons next rest ih => exact ih (halts.turn next)

/-- Where no job runs, a request to stop changes nothing. -/
theorem work_request (halted : ∀ job, live.discovery.job = some job → job.state ≠ .running) :
    live.work .request = ([], live) := by
  unfold Live.work
  cases present : live.discovery.job with
  | none => rfl
  | some job =>
      have refused : Job.turn .request job = ([], job) := by
        have state := halted job present
        rcases job with ⟨state', token, stage⟩
        cases state' with
        | running => exact absurd rfl state
        | notStarted | cancelled | completed => rfl
      simp only [refused, List.map_nil]
      rcases live with ⟨discovery, taken, finishing, calling, isDropped⟩
      rcases discovery with ⟨registry, identify, accepted, parked, job', session, dispatcher⟩
      obtain rfl : job' = some job := present
      rfl

end Live

namespace Recorded

variable {marks : List Mark} {recorded : Recorded} {settled : List (Ask × Call)}
  {standing : Option Ask} {number : Nat}

/-- The job of a search is over: a call that waits for it returns. -/
def Returned (number : Nat) (recorded : Recorded) : Prop :=
  number ∈ recorded.posted.map Prod.fst

/-- A request to stop changes only the job. -/
theorem turn_request (recorded : Recorded) :
    recorded.turn (.job .request) =
      ((recorded.live.work .request).1,
        { recorded with live := (recorded.live.work .request).2 }) := by
  exact turn_live recorded (trail_request recorded.live) rfl

/-- Where no search is in flight, a request to stop changes nothing and does nothing. -/
theorem Sound.idle (sound : Sound marks recorded)
    (isOver : recorded.live.discovery.isOver = true) :
    recorded.turn (.job .request) = ([], recorded) := by
  rcases sound with ⟨-, settled, standing, stands⟩
  have halted : ∀ job, recorded.live.discovery.job = some job → job.state ≠ .running := by
    intro job present running
    cases stands.engaged with
    | idle none => simp [none] at present
    | standing callback job_eq follows cancelled going number =>
        obtain rfl := Option.some.inj (job_eq.symm.trans present)
        simp [Discovery.isOver, job_eq, Job.isOver, going, running] at isOver
    | answered job_eq follows decided posted number =>
        obtain rfl := Option.some.inj (job_eq.symm.trans present)
        simp [(follows.of_running running).2] at decided
  rw [turn_request, Live.work_request halted]

/-- A discovery with which no search is under way. -/
structure Free (recorded : Recorded) : Prop where
  searching : recorded.live.discovery.isSearching = false
  parked : recorded.live.discovery.parked = none
  /-- The next search for which methods are made is accepted. -/
  next : ∀ options, recorded.live.discovery.resolve options ≠ [] →
    recorded.live.discovery.verdict options =
      .accepted (recorded.live.discovery.accepted + 1) (recorded.live.discovery.resolve options)
  /-- Stopping changes nothing, does nothing and calls nothing. -/
  stop : recorded.turn (.job .request) = ([], recorded)

/-- Where the last search is over, no search is under way. -/
theorem Sound.free (sound : Sound marks recorded)
    (isOver : recorded.live.discovery.isOver = true) : Free recorded := by
  have idle := sound.idle isOver
  rcases sound with ⟨-, settled, standing, stands⟩
  have none : standing = none ∧ recorded.live.discovery.isSearching = false := by
    cases stands.engaged with
    | idle none => simp [isSearching, none]
    | standing callback job_eq follows cancelled going number =>
        simp [Discovery.isOver, job_eq, Job.isOver, going, follows.state_ne_notStarted] at isOver
    | answered job_eq follows decided posted number =>
        rename_i job seen methods
        have halted : job.state ≠ .running := by
          intro running
          simp [(follows.of_running running).2] at decided
        simp [isSearching, job_eq, Job.isRunning, halted]
  have parked : recorded.live.discovery.parked = .none := by
    rw [stands.parked, none.1]
    rfl
  constructor
  · exact none.2
  · exact parked
  · intro options made
    exact verdict_eq_accepted.mpr ⟨parked, rfl, made, rfl⟩
  · exact idle

/-- How a search has been answered that is over. -/
structure Answered (marks : List Mark) (recorded : Recorded) (number : Nat) (callback : Callback)
    (methods : List Method) (results : List Bridge) (code : ReturnCode) : Prop where
  asked : .asked ⟨callback, .accepted number methods⟩ ∈ marks
  /-- Its outcome has been posted once. -/
  posted : ∃ reporter, recorded.posted.filter (·.1 = number) = [(number, reporter)] ∧
    reporter.call? = some ⟨callback, results, code⟩
  /-- It counts as stopped if a request to stop it was accepted. -/
  code : .cancelled number ∈ marks ∧ code = .stopped ∨
    .cancelled number ∉ marks ∧ code = .success
  /-- Its results are merged from what the methods have delivered that ended before its token
  was fired, and what the method that was running then has still delivered. -/
  results : ∃ finished running token left,
    Runner.Cut (Runner.ofMethods methods).queue (recorded.history number) finished running ∧
      Runner.Merges (Runner.ofMethods methods).queue token (finished ++ running.toList) results left

theorem filter_eq_singleton {entries : List (Nat × Reporter)} {entry : Nat × Reporter}
    (nodup : (entries.map Prod.fst).Nodup) (member : entry ∈ entries) :
    entries.filter (·.1 = entry.1) = [entry] := by
  induction entries with
  | nil => cases member
  | cons first rest ih =>
      rw [List.map_cons, List.nodup_cons] at nodup
      rcases List.mem_cons.mp member with rfl | later
      · have others : rest.filter (·.1 = entry.1) = [] := by
          rw [List.filter_eq_nil_iff]
          intro other there
          simp only [decide_eq_true_eq]
          intro same
          exact nodup.1 (same ▸ List.mem_map_of_mem there)
        rw [List.filter_cons_of_pos (by simp), others]
      · have apart : first.1 ≠ entry.1 := by
          intro same
          exact nodup.1 (same ▸ List.mem_map_of_mem later)
        rw [List.filter_cons_of_neg (by simpa using apart)]
        exact ih nodup.2 later

/-- A search that is over has been answered. -/
theorem Sound.answered (sound : Sound marks recorded) (returned : recorded.Returned number) :
    ∃ callback methods results code,
      Answered marks recorded number callback methods results code := by
  rcases sound with ⟨agrees, settled, standing, stands⟩
  rcases List.mem_map.mp returned with ⟨entry, there, rfl⟩
  have member : entry ∈ recorded.outcomes := List.mem_append_left _ there
  have nodup : (recorded.posted.map Prod.fst).Nodup := by
    have all := agrees.nodup
    rw [outcomes, List.map_append] at all
    exact (List.nodup_append.mp all).1
  rcases agrees.known stands member with ⟨positive, below⟩
  rcases agrees.held entry.1 positive below with ⟨callback, methods, seen, job, held⟩
  rcases held.recalls with ⟨rest, recalls, ended⟩
  rcases ended entry member rfl with ⟨⟨results, left⟩, rfl, -, reporter⟩
  refine ⟨callback, methods, results, .ofCancelled (wasCancelled seen), ?_⟩
  constructor
  · exact held.asked
  · apply Exists.intro entry.2
    constructor
    · exact filter_eq_singleton nodup there
    · rw [reporter]
      rfl
  · rw [held.cancelled]
    cases wasCancelled seen with
    | true => exact .inl ⟨rfl, rfl⟩
    | false => exact .inr ⟨Bool.false_ne_true, rfl⟩
  · rcases Runner.exists_cut recalls.course with ⟨finished, running, cut, merges⟩
    exact ⟨finished, running, job.token, left, cut, merges⟩

/-- A request to stop is accepted exactly if a search is running. -/
theorem cancelled_mem_request (live : Live) :
    .cancelled live.discovery.accepted ∈ (live.work .request).1 ↔
      live.discovery.isSearching = true := by
  unfold Live.work isSearching
  cases present : live.discovery.job with
  | none => simp
  | some job =>
      rcases job with ⟨state, token, stage⟩
      cases state <;>
        simp [Job.turn, Job.request?, Job.isRunning, Mark.ofJob]

/-- The account of a call to stop.  `more` and `asked` are what can be seen of asking the search
that was accepted last to stop, and the discovery after it; what happens until the call returns
is up to the schedule. -/
structure Stops (marks : List Mark) (recorded : Recorded) (more : List Mark) (asked : Recorded) :
    Prop where
  /-- Where no search is in flight, the call returns at once and has changed nothing. -/
  idle : recorded.live.discovery.isOver = true → more = [] ∧ asked = recorded ∧ Free recorded
  /-- A request to stop is accepted exactly if a search is running. -/
  accepted : .cancelled recorded.live.discovery.accepted ∈ more ↔
    recorded.live.discovery.isSearching = true
  /-- The call waits for the job that it has asked to stop. -/
  waits : recorded.live.discovery.isOver = false → ∀ during,
    (asked.workBy during).2.live.discovery.accepted = recorded.live.discovery.accepted →
      ((asked.workBy during).2.Returned recorded.live.discovery.accepted ↔
        (asked.workBy during).2.live.discovery.isOver = true)
  /-- By itself, the call comes to its end. -/
  returns : recorded.live.discovery.isOver = false → ∀ during, ∃ turns,
    (∀ next ∈ turns, next.isOwn = true) ∧
      ((asked.workBy during).2.workBy turns).2.Returned recorded.live.discovery.accepted
  /-- When the call returns, the outcome of the search that was in flight has been posted, which
  it had not been before. -/
  answered : recorded.live.discovery.isOver = false → ∀ during,
    (asked.workBy during).2.Returned recorded.live.discovery.accepted →
      ¬ recorded.Returned recorded.live.discovery.accepted ∧
      ∃ callback methods results code,
        Answered (marks ++ more ++ (asked.workBy during).1) (asked.workBy during).2
          recorded.live.discovery.accepted callback methods results code
  /-- What its methods have done before is part of what they have done then. -/
  goesOn : ∀ during number, recorded.history number <+: (asked.workBy during).2.history number
  /-- Every outcome that has been posted is called, or waits to be. -/
  called : ∀ during, ((asked.workBy during).2.posted.filterMap fun entry => entry.2.call?).Subperm
    ((asked.workBy during).2.calls (marks ++ more ++ (asked.workBy during).1))
  /-- Then no search is under way, unless another one has been accepted since. -/
  free : recorded.live.discovery.isOver = false → ∀ during,
    (asked.workBy during).2.Returned recorded.live.discovery.accepted →
      (asked.workBy during).2.live.discovery.accepted = recorded.live.discovery.accepted →
        Free (asked.workBy during).2

end Recorded

end BridgeFinder.Discovery
