import BridgeFinder.Proofs.Discovery.Rest

/-!
# The account of a discovery

Every callback that is supplied is called at most once, and how it is called depends only
on the state in which its search was asked for and on whether a request to stop it was
accepted.  By itself a discovery comes to rest, and then every callback has been called,
unless a method hangs that has not been asked to stop.
-/

namespace BridgeFinder.Discovery

open BridgeFinder.Job (Follows wasCancelled)

variable {marks : List Mark} {live : Live} {settled : List (Ask × Call)}
  {standing : Option Ask}

/-! ## A discovery at rest -/

/-- A method hangs until it is asked to stop, and it has not been asked to. -/
def Live.Hangs (live : Live) : Prop :=
  ∃ job leave, live.discovery.job = some job ∧ job.stage = .executing (.stall leave) ∧
    job.state = .running ∧ job.token = false

namespace Live.Rests

/-- At rest, no turn of the job changes it. -/
theorem job (rests : live.Rests) {job : Job Activity (List Bridge × Runner)}
    (present : live.discovery.job = some job) {next : Job.Turn}
    (own : (Turn.job next).isOwn = true) : (job.turn next).2 = job := by
  have same := congrArg (fun step => step.2.discovery.job) (rests (.job next) own)
  simp only [turn, work, present, Option.some.injEq] at same
  exact same

/-- At rest, no outcome is being reported. -/
theorem finishing (rests : live.Rests) : live.finishing = [] := by
  cases finishing : live.finishing with
  | nil => rfl
  | cons first rest =>
      by_cases announced : first.announced = true
      · have same := congrArg (fun step => step.2.finishing.length) (rests (.post 0) rfl)
        simp [turn, post, finishing, announced] at same
      · have same := congrArg (fun step => step.2.finishing[0]?.map Finishing.announced)
          (rests (.announce 0) rfl)
        simp [turn, Live.announce, finishing, announced] at same

/-- At rest, no callback is being called. -/
theorem calling (rests : live.Rests) : live.calling = [] := by
  cases calling : live.calling with
  | nil => rfl
  | cons first rest =>
      have same := congrArg (fun step => step.1) (rests .nested rfl)
      simp [turn, nested, calling, ask] at same

/-- At rest, no call waits to be made. -/
theorem waiting (rests : live.Rests) : live.discovery.dispatcher.waiting = [] := by
  cases waiting : live.discovery.dispatcher.waiting with
  | nil => rfl
  | cons first rest =>
      have same := congrArg (fun step => step.1) (rests .call rfl)
      simp [turn, Live.call, rests.calling, Dispatcher.next?, waiting] at same

/-- At rest, no call is due. -/
theorem due (rests : live.Rests) : live.due = [] := by
  simp [Live.due, rests.waiting, rests.finishing]

/-- At rest, a search still stands only if one of its methods hangs. -/
theorem hangs (rests : live.Rests) {ask : Ask} (engaged : Engaged marks live (some ask)) :
    live.Hangs := by
  cases engaged with
  | standing callback job_eq follows cancelled going number =>
      rename_i job seen methods
      have idle (next : Job.Turn) (own : next ≠ .request) : (job.turn next).2 = job := by
        apply rests.job job_eq
        cases next with
        | request => exact absurd rfl own
        | fire | go | release | decide => rfl
      rcases follows.cases_of_idle idle with ⟨outcome, reported⟩ | finished | ⟨⟨leave, stage⟩, hanging⟩
      · have same := congrArg (fun step => step.2.taken) (rests .take rfl)
        simp [turn, Live.take, job_eq, reported, number, Discovery.take] at same
      · rw [going] at finished
        cases finished
      · exact ⟨job, leave, job_eq, stage, hanging⟩

end Live.Rests

/-! ## The account -/

/-- The account of a discovery.  The searches that were asked for are those that are
settled, each with its answer, and the one that stands. -/
structure Account (marks : List Mark) (live : Live) (settled : List (Ask × Call))
    (standing : Option Ask) : Prop where
  /-- Every search is settled once, or stands. -/
  asked : (asks marks).Perm (settled.map Prod.fst ++ standing.toList)
  /-- Every answer has been called or is due, and no other call is. -/
  called : (settled.map Prod.snd).Perm (calls marks ++ live.due)
  answered : ∀ entry ∈ settled, Answers marks entry.1 entry.2
  /-- Searches are numbered in the order in which they are accepted. -/
  numbers : (asks marks).filterMap Ask.number? = List.range' 1 live.discovery.accepted
  /-- The callback that is parked is that of the search that stands. -/
  parked : live.discovery.parked = standing.map Ask.callback
  /-- The search that stands is the one that was accepted last. -/
  last : ∀ ask, standing = some ask → ask.number? = some live.discovery.accepted
  /-- The search accepted last is not settled as long as its callback is parked, so it
  is not on its account that a search asked for by a callback finds the slot taken. -/
  unsettled : live.discovery.parked.isSome = true →
    ∀ entry ∈ settled, entry.1.number? ≠ some live.discovery.accepted
  /-- A callback is parked exactly if the job has been started and its outcome has not been
  taken. -/
  engaged : live.discovery.parked.isSome = true ↔
    (∃ job, live.discovery.job = some job ∧ job.state ≠ .notStarted) ∧
      live.taken ≠ live.discovery.accepted
  /-- The next search is received by whether a callback is parked and whether its options
  select a method that can be made. -/
  received : ∀ options callback,
    Receives live.discovery options callback (live.discovery.verdict options)
      (live.discovery.searchWith options (some callback)).2
  /-- At rest every search is settled and its callback has been called, unless a method hangs
  in a discovery that has not been dropped. -/
  rest : live.Rests →
    live.due = [] ∧ (standing = none ∨ live.Hangs ∧ live.isDropped = false)
  /-- By itself the discovery comes to rest. -/
  settles : ∃ turns, (∀ next ∈ turns, next.isOwn = true) ∧ (live.workBy turns).2.Rests

/-- How a discovery stands is its account. -/
theorem Stands.account (stands : Stands marks live settled standing) :
    Account marks live settled standing where
  asked := stands.ledger.asked
  called := stands.ledger.called
  answered := stands.ledger.answered
  numbers := stands.numbers
  parked := stands.parked
  last := by
    rintro ask rfl
    cases stands.engaged with
    | standing callback job_eq follows cancelled going number => rfl
  unsettled := by
    intro parked entry member accepted
    have taken := stands.ledger.taken entry member _ accepted
    rw [stands.parked] at parked
    cases engaged : stands.engaged with
    | idle | answered => cases parked
    | standing callback job_eq follows cancelled going number => omega
  engaged := by
    rw [stands.parked]
    cases stands.engaged with
    | idle job accepted taken => simp [job]
    | standing callback job_eq follows cancelled going number =>
        simp [job_eq, follows.state_ne_notStarted, number]
    | answered job_eq follows decided posted number => simp [number]
  received := live.discovery.receives
  rest := by
    intro rests
    constructor
    · exact rests.due
    · cases standing with
      | none => exact .inl rfl
      | some ask =>
          right
          have hangs := rests.hangs stands.engaged
          constructor
          · exact hangs
          · rcases hangs with ⟨job, leave, present, -, running, -⟩
            by_contra dropped
            exact (stands.dropped (by simpa using dropped)).2 job present running
  settles := live.exists_rests

/-- By whatever schedule a discovery works, with whatever methods, it comes to its
account. -/
theorem workBy_account (registry : Registry) (identify : Nat → Session) (turns : List Turn) :
    let work := Live.workBy turns { discovery := { registry, identify } }
    ∃ settled standing, Account work.1 work.2 settled standing := by
  rcases (Stands.fresh registry identify).workBy turns with ⟨settled, standing, stands⟩
  exact ⟨settled, standing, stands.account⟩

end BridgeFinder.Discovery
