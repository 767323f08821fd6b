import BridgeFinder.Discovery.Live
import BridgeFinder.Proofs.Discovery.Stands
import BridgeFinder.Proofs.Job.Trail

/-!
# What the record of a discovery shows

A record follows the discovery that it is about.  The history of every search that was accepted
is a course of its methods.  Every outcome that was taken is either still being reported or has
been posted, once, and it is what the history of its search has ended with.
-/

namespace BridgeFinder.Discovery

open BridgeFinder.Job (Follows Recalls wasCancelled)

/-- An outcome that is being reported, with the number of its search. -/
def Finishing.entry (finishing : Finishing) : Nat × Reporter :=
  (finishing.number, finishing.reporter)

namespace Recorded

/-- The outcomes that have been taken: they have been posted or are being reported. -/
def outcomes (recorded : Recorded) : List (Nat × Reporter) :=
  recorded.posted ++ recorded.live.finishing.map Finishing.entry

/-- The calls that have been posted, whether they have been made or not. -/
def calls (marks : List Mark) (recorded : Recorded) : List Call :=
  Discovery.calls marks ++ recorded.live.discovery.dispatcher.waiting

/-- A search that was accepted: its callback, its methods, what could be seen of its job, and
how far the job has come. -/
structure Held (marks : List Mark) (recorded : Recorded) (number : Nat) (callback : Callback)
    (methods : List Method) (seen : List (Job.Mark Activity))
    (job : Job Activity (List Bridge × Runner)) : Prop where
  asked : .asked ⟨callback, .accepted number methods⟩ ∈ marks
  made : ∃ options, methods = recorded.live.discovery.registry.resolve options
    (recorded.live.discovery.identify (number - 1))
  /-- A discovery keeps the job of the search that was accepted last. -/
  kept : number = recorded.live.discovery.accepted → recorded.live.discovery.job = some job
  parked : recorded.live.taken < number → recorded.live.discovery.parked = some callback
  follows : Follows (Runner.ofMethods methods).execute seen job
  cancelled : .cancelled number ∈ marks ↔ wasCancelled seen = true
  /-- The outcome is what the history has ended with. -/
  recalls : ∃ rest, Recalls (Runner.ofMethods methods).execute (recorded.history number) job rest ∧
    ∀ entry ∈ recorded.outcomes, entry.1 = number →
      ∃ output, rest = .done output ∧ job.stage.isDecided = true ∧
        entry.2 = ⟨some callback, some (recorded.live.discovery.identify (number - 1)),
          ⟨output, wasCancelled seen⟩⟩
  /-- The job is over exactly if the outcome has been posted. -/
  closed : job.isFinished = true ↔ number ∈ recorded.posted.map Prod.fst

/-- A record agrees with what can be seen. -/
structure Agrees (marks : List Mark) (recorded : Recorded) : Prop where
  /-- Of every search that was accepted the outcome is taken once, in their order. -/
  numbers : (recorded.outcomes.map Prod.fst).Perm (List.range' 1 recorded.live.taken)
  session : recorded.live.discovery.session =
    if recorded.live.discovery.accepted = 0 then none
    else some (recorded.live.discovery.identify (recorded.live.discovery.accepted - 1))
  unseen : ∀ number, recorded.live.discovery.accepted < number → recorded.history number = []
  /-- What has been posted is called, or waits to be. -/
  posted : (recorded.posted.filterMap fun entry => entry.2.call?).Subperm (recorded.calls marks)
  held : ∀ number, 0 < number → number ≤ recorded.live.discovery.accepted →
    ∃ callback methods seen job, Held marks recorded number callback methods seen job

variable {marks more : List Mark} {recorded other : Recorded} {settled : List (Ask × Call)}
  {standing : Option Ask} {number : Nat} {callback : Callback} {methods : List Method}
  {seen : List (Job.Mark Activity)} {job : Job Activity (List Bridge × Runner)}

theorem Agrees.fresh (registry : Registry) (identify : Nat → Session) :
    Agrees [] (fresh registry identify) where
  numbers := .refl _
  session := rfl
  unseen _ _ := rfl
  posted := .refl _
  held := by
    intro number positive below
    exact absurd positive (Nat.not_lt.mpr below)

/-- An outcome that has been taken is that of one of the searches before. -/
theorem Agrees.number_le (agrees : Agrees marks recorded) {entry : Nat × Reporter}
    (member : entry ∈ recorded.outcomes) : entry.1 ≤ recorded.live.taken := by
  have among := agrees.numbers.mem_iff.mp (List.mem_map_of_mem member)
  rw [List.mem_range'_1] at among
  omega

/-- It is that of one of the searches that were accepted. -/
theorem Agrees.known (agrees : Agrees marks recorded)
    (stands : Stands marks recorded.live settled standing) {entry : Nat × Reporter}
    (member : entry ∈ recorded.outcomes) :
    0 < entry.1 ∧ entry.1 ≤ recorded.live.discovery.accepted := by
  have among := agrees.numbers.mem_iff.mp (List.mem_map_of_mem member)
  rw [List.mem_range'_1] at among
  exact ⟨among.1, Nat.le_trans (agrees.number_le member) stands.taken_le⟩

theorem Agrees.nodup (agrees : Agrees marks recorded) : (recorded.outcomes.map Prod.fst).Nodup :=
  agrees.numbers.nodup_iff.mpr List.nodup_range'

/-! ## Turns that leave the record as it is -/

/-- A search is held as before while nothing happens to it. -/
theorem Held.congr (held : Held marks recorded number callback methods seen job)
    (registry : other.live.discovery.registry = recorded.live.discovery.registry)
    (identify : other.live.discovery.identify = recorded.live.discovery.identify)
    (kept : number = other.live.discovery.accepted → other.live.discovery.job = some job)
    (parked : other.live.taken < number → other.live.discovery.parked = some callback)
    (silent : .cancelled number ∉ more) (history : other.history number = recorded.history number)
    (outcomes : ∀ entry ∈ other.outcomes, entry.1 = number → entry ∈ recorded.outcomes)
    (posted : number ∈ other.posted.map Prod.fst ↔ number ∈ recorded.posted.map Prod.fst) :
    Held (marks ++ more) other number callback methods seen job := by
  constructor
  · exact List.mem_append_left more held.asked
  · rw [registry, identify]
    exact held.made
  · exact kept
  · exact parked
  · exact held.follows
  · simpa [silent] using held.cancelled
  · rcases held.recalls with ⟨rest, recalls, ended⟩
    apply Exists.intro rest
    rw [history, identify]
    apply And.intro recalls
    intro entry member same
    exact ended entry (outcomes entry member same) same
  · exact held.closed.trans posted.symm

/-- The record of a discovery stays as it is while only calls are posted and made. -/
theorem Agrees.congr (agrees : Agrees marks recorded) {dispatcher : Dispatcher Call}
    {finishing : List Finishing} {calling : List (Options × Callback)} {isDropped : Bool}
    (entries : finishing.map Finishing.entry = recorded.live.finishing.map Finishing.entry)
    (silent : ∀ number, .cancelled number ∉ more)
    (kept : (recorded.calls marks).Subperm
      (Discovery.calls (marks ++ more) ++ dispatcher.waiting)) :
    Agrees (marks ++ more)
      { recorded with
        live := { recorded.live with
          discovery := { recorded.live.discovery with dispatcher }
          finishing, calling, isDropped } } := by
  have outcomes : recorded.posted ++ finishing.map Finishing.entry = recorded.outcomes := by
    rw [entries]
    rfl
  constructor
  · simpa only [Recorded.outcomes, outcomes] using agrees.numbers
  · exact agrees.session
  · exact agrees.unseen
  · exact agrees.posted.trans kept
  · intro number positive below
    rcases agrees.held number positive below with ⟨callback, methods, seen, job, held⟩
    refine ⟨callback, methods, seen, job, ?_⟩
    apply held.congr
    · rfl
    · rfl
    · exact held.kept
    · exact held.parked
    · exact silent number
    · rfl
    · intro entry member _
      rwa [← outcomes]
    · rfl

/-- A search that is declined is answered at once. -/
theorem Agrees.decline (agrees : Agrees marks recorded)
    (isOpen : recorded.live.discovery.dispatcher.isOpen = true) (ask : Ask) (answer : Call) :
    Agrees (marks ++ [.asked ask])
      { recorded with
        live := { recorded.live with discovery := recorded.live.discovery.post answer } } := by
  rw [post_eq isOpen]
  apply agrees.congr rfl
  · simp
  · simp only [calls, calls_append, calls_asked, List.append_nil, ← List.append_assoc]
    exact (List.sublist_append_left _ _).subperm

/-- Reporting an outcome posts nothing yet. -/
theorem Agrees.announce (agrees : Agrees marks recorded) (place : Nat) :
    Agrees (marks ++ (recorded.live.announce place).1)
      { recorded with live := (recorded.live.announce place).2 } := by
  unfold Live.announce
  cases found : recorded.live.finishing[place]? with
  | none => simpa using agrees
  | some first =>
      by_cases announced : first.announced = true
      · simpa [announced] using agrees
      · simp only [if_neg announced]
        apply agrees.congr (map_announced rfl found)
        · simp
        · simp [calls, calls_append, calls_activities, List.Subperm.refl]

/-- A call that is made has been posted before. -/
theorem Agrees.call (agrees : Agrees marks recorded) :
    Agrees (marks ++ recorded.live.call.1) { recorded with live := recorded.live.call.2 } := by
  unfold Live.call
  split
  · rename_i call dispatcher idle taken
    rcases next?_eq_some taken with ⟨waiting, -⟩
    apply agrees.congr rfl
    · simp
    · simp [calls, calls_append, waiting, List.Subperm.refl]
  · simpa using agrees

theorem Agrees.shut (agrees : Agrees marks recorded) :
    Agrees marks { recorded with live := recorded.live.shut } := by
  unfold Live.shut
  split
  · rw [← List.append_nil marks]
    apply agrees.congr rfl
    · simp
    · simp [calls, Dispatcher.shut, List.Subperm.refl]
  · exact agrees

/-- What the callback that is being called has still to ask for does not matter, and neither
does it whether the discovery has been dropped. -/
theorem Agrees.aside (agrees : Agrees marks recorded) (calling : List (Options × Callback))
    (isDropped : Bool) :
    Agrees marks { recorded with live := { recorded.live with calling, isDropped } } := by
  rw [← List.append_nil marks]
  apply agrees.congr rfl
  · simp
  · simp [calls, List.Subperm.refl]

/-! ## The search that is accepted last -/

/-- A search that is accepted has a history of its own. -/
theorem Agrees.accept (agrees : Agrees marks recorded)
    (stands : Stands marks recorded.live settled standing) {options : Options}
    (accepted : recorded.live.discovery.verdict options = .accepted number methods)
    (callback : Callback) :
    Agrees (marks ++ ([.asked ⟨callback, .accepted number methods⟩] ++
        [.activity recorded.live.discovery.nextSession.started]))
      { recorded with
        live := { recorded.live with
          discovery := (recorded.live.discovery.searchWith options (some callback)).2 } } := by
  rcases verdict_eq_accepted.mp accepted with ⟨free, made, -, rfl⟩
  have same : recorded.live.discovery.accepted = recorded.live.taken := by
    have parked := stands.parked
    rw [free] at parked
    cases stands.engaged with
    | idle none zero start => omega
    | standing => cases parked
    | answered job_eq follows decided posted number => exact number
  have late (entry : Nat × Reporter) (member : entry ∈ recorded.outcomes) :
      entry.1 ≠ recorded.live.discovery.accepted + 1 := by
    have := agrees.number_le member
    omega
  rw [searchWith_of_accepted accepted]
  constructor
  · exact agrees.numbers
  · simp [nextSession]
  · intro number later
    exact agrees.unseen number (Nat.lt_trans (Nat.lt_succ_self _) later)
  · have none : Discovery.calls ([.asked ⟨callback, .accepted (recorded.live.discovery.accepted + 1)
        methods⟩] ++ [.activity recorded.live.discovery.nextSession.started]) = [] := rfl
    apply agrees.posted.trans
    simp only [calls, calls_append marks, none, List.append_nil]
    exact List.Subperm.refl _
  · intro number positive below
    by_cases last : number = recorded.live.discovery.accepted + 1
    · subst last
      refine ⟨callback, methods, [], (Job.new (Runner.ofMethods methods).execute).run.1, ?_⟩
      constructor
      · simp
      · exact ⟨options, made.symm⟩
      · intro _
        rfl
      · intro _
        rfl
      · exact .run _
      · have unheard : .cancelled (recorded.live.discovery.accepted + 1) ∉ marks := by
          intro cancelled
          have := stands.cancelled _ cancelled
          omega
        simpa [wasCancelled] using unheard
      · rw [agrees.unseen _ (Nat.lt_succ_self _)]
        exact ⟨_, .run _, fun entry member same => absurd same (late entry member)⟩
      · have unposted : recorded.live.discovery.accepted + 1 ∉ recorded.posted.map Prod.fst := by
          intro member
          rcases List.mem_map.mp member with ⟨entry, there, same⟩
          exact late entry (List.mem_append_left _ there) same
        simp only [unposted, iff_false]
        intro finished
        cases finished
    · have older : number ≤ recorded.live.discovery.accepted := by
        simp only at below
        omega
      rcases agrees.held number positive older with ⟨callback', methods', seen, job, held⟩
      refine ⟨callback', methods', seen, job, ?_⟩
      apply held.congr
      · rfl
      · rfl
      · intro same
        exact absurd same last
      · intro above
        simp only at above
        omega
      · simp
      · rfl
      · exact fun _ member _ => member
      · rfl

/-- However a search is answered, the record goes on to agree. -/
theorem Agrees.ask (agrees : Agrees marks recorded)
    (stands : Stands marks recorded.live settled standing)
    (present : recorded.live.isDropped = false)
    (options : Options) (callback : Option Callback) :
    Agrees (marks ++ (recorded.live.ask options callback).1)
      { recorded with live := (recorded.live.ask options callback).2 } := by
  have isOpen : recorded.live.discovery.dispatcher.isOpen = true := by
    by_contra closed
    have := stands.shut (by simpa using closed)
    simp [present] at this
  cases callback with
  | none => simpa [Live.ask, searchWith] using agrees
  | some callback =>
      cases verdict : recorded.live.discovery.verdict options with
      | busy =>
          have next := agrees.decline isOpen ⟨callback, .busy⟩ ⟨callback, [], .busy⟩
          simpa [Live.ask, searchWith_of_busy verdict, verdict] using next
      | missing =>
          have next := agrees.decline isOpen ⟨callback, .missing⟩ ⟨callback, [], .missingMethods⟩
          simpa [Live.ask, searchWith_of_missing verdict, verdict] using next
      | accepted number methods =>
          have next := agrees.accept stands verdict callback
          simp only [searchWith_of_accepted verdict] at next
          simpa [Live.ask, searchWith_of_accepted verdict, verdict] using next

/-! ## The job and its outcome -/

/-- The turns of a job take the history of its search along. -/
theorem Held.work (held : Held marks recorded number callback methods seen job)
    (last : number = recorded.live.discovery.accepted) (next : Job.Turn) :
    Held (marks ++ (job.turn next).1.map (.ofJob number))
      { recorded with
        live := { recorded.live with
          discovery := { recorded.live.discovery with job := some (job.turn next).2 } }
        history := fun other => recorded.history other ++
          if other = recorded.live.discovery.accepted then job.trail next else [] }
      number callback methods (seen ++ (job.turn next).1) (job.turn next).2 := by
  have step := Job.step_turn next job
  constructor
  · exact List.mem_append_left _ held.asked
  · exact held.made
  · intro _
    rfl
  · exact held.parked
  · exact held.follows.turn next
  · simp [held.cancelled, cancelled_mem_ofJob]
  · rcases held.recalls with ⟨rest, recalls, ended⟩
    rcases recalls.turn next with ⟨left, recalled, still⟩
    apply Exists.intro left
    constructor
    · simpa only [if_pos last] using recalled
    · intro entry member same
      rcases ended entry member same with ⟨output, rfl, decided, reported⟩
      have silent := held.follows.silent decided step
      refine ⟨output, still output rfl, step.isDecided decided, ?_⟩
      rw [silent, List.append_nil]
      exact reported
  · rw [step.isFinished]
    exact held.closed

/-- Whatever turn it takes, the job of a discovery takes the history along. -/
theorem Agrees.work (agrees : Agrees marks recorded) (next : Job.Turn) :
    Agrees (marks ++ (recorded.live.work next).1)
      { recorded with
        live := (recorded.live.work next).2
        history := fun number =>
          recorded.history number ++ recorded.trail (.job next) number } := by
  cases present : recorded.live.discovery.job with
  | none => simpa [Live.work, Recorded.trail, Live.trail, present] using agrees
  | some job =>
      simp only [Live.work, Recorded.trail, Live.trail, present, Option.map_some, Option.getD_some]
      constructor
      · exact agrees.numbers
      · exact agrees.session
      · intro number later
        simp [agrees.unseen number later, Nat.ne_of_gt later]
      · apply agrees.posted.trans
        simp [calls, calls_append, calls_ofJob, List.Subperm.refl]
      · intro number positive below
        rcases agrees.held number positive below with ⟨callback, methods, seen, job', held⟩
        by_cases last : number = recorded.live.discovery.accepted
        · obtain rfl := Option.some.inj (present.symm.trans (held.kept last))
          have worked := held.work last next
          rw [last] at worked ⊢
          exact ⟨_, _, _, _, worked⟩
        · refine ⟨callback, methods, seen, job', ?_⟩
          apply held.congr
          · rfl
          · rfl
          · intro same
            exact absurd same last
          · exact held.parked
          · intro cancelled
            exact last (cancelled_mem_ofJob.mp cancelled).1
          · simp [last]
          · exact fun _ member _ => member
          · rfl

/-- The outcome that is taken is that of the search that was accepted last. -/
theorem Held.take (held : Held marks recorded number callback methods seen job)
    (last : number = recorded.live.discovery.accepted)
    (untaken : recorded.live.taken < recorded.live.discovery.accepted)
    (session : recorded.live.discovery.session =
      some (recorded.live.discovery.identify (number - 1)))
    (fresh : ∀ entry ∈ recorded.outcomes, entry.1 ≠ number)
    {outcome : Outcome (List Bridge × Runner)} (reported : job.outcome? = some outcome) :
    Held marks
      { recorded with
        live := { recorded.live with
          discovery := { recorded.live.discovery with parked := none }
          taken := recorded.live.discovery.accepted
          finishing := recorded.live.finishing ++ [{
            number := recorded.live.discovery.accepted
            reporter := ⟨recorded.live.discovery.parked, recorded.live.discovery.session,
              outcome⟩ }] } }
      number callback methods seen job := by
  constructor
  · exact held.asked
  · exact held.made
  · exact held.kept
  · intro above
    simp only at above
    omega
  · exact held.follows
  · exact held.cancelled
  · rcases held.recalls with ⟨rest, recalls, -⟩
    apply Exists.intro rest
    apply And.intro recalls
    intro entry member same
    simp only [outcomes, List.map_append, ← List.append_assoc] at member
    rcases List.mem_append.mp member with before | new
    · exact absurd same (fresh entry before)
    · obtain rfl := List.mem_singleton.mp new
      refine ⟨outcome.output, recalls.rest_of_outcome? reported,
        (delivers_of_outcome? held.follows reported).1, ?_⟩
      simp only [Finishing.entry, held.parked (last ▸ untaken), session,
        ← held.follows.outcome outcome reported]
  · exact held.closed

/-- Every outcome is taken once. -/
theorem Agrees.take (agrees : Agrees marks recorded)
    (stands : Stands marks recorded.live settled standing) :
    Agrees marks { recorded with live := recorded.live.take } := by
  unfold Live.take
  cases reported : recorded.live.discovery.job.bind Job.outcome? with
  | none => exact agrees
  | some outcome =>
      by_cases taken : recorded.live.taken = recorded.live.discovery.accepted
      · simp only [if_pos taken]
        exact agrees
      · simp only [if_neg taken, Discovery.take]
        rcases Option.bind_eq_some_iff.mp reported with ⟨job, present, reported⟩
        have number : recorded.live.discovery.accepted = recorded.live.taken + 1 := by
          cases stands.engaged with
          | idle none => simp [none] at present
          | answered job_eq follows decided posted number => exact absurd number.symm taken
          | standing callback job_eq follows cancelled going number => exact number
        have fresh (entry : Nat × Reporter) (member : entry ∈ recorded.outcomes) :
            entry.1 ≠ recorded.live.discovery.accepted := by
          have := agrees.number_le member
          omega
        constructor
        · simp only [outcomes, List.map_append, ← List.append_assoc]
          rw [number, List.range'_1_concat]
          have numbers := agrees.numbers
          simp only [outcomes, List.map_append] at numbers
          simpa [Finishing.entry, Nat.add_comm] using numbers.append_right _
        · exact agrees.session
        · exact agrees.unseen
        · exact agrees.posted
        · intro other positive below
          rcases agrees.held other positive below with ⟨callback, methods, seen, job', held⟩
          refine ⟨callback, methods, seen, job', ?_⟩
          by_cases last : other = recorded.live.discovery.accepted
          · obtain rfl := Option.some.inj (present.symm.trans (held.kept last))
            have session := agrees.session
            rw [if_neg (by omega), ← last] at session
            exact held.take last (by omega) session (last ▸ fresh) reported
          · rw [← List.append_nil marks]
            apply held.congr
            · rfl
            · rfl
            · exact held.kept
            · intro above
              simp only at above below
              omega
            · exact List.not_mem_nil
            · rfl
            · intro entry member same
              simp only [outcomes, List.map_append, ← List.append_assoc] at member
              rcases List.mem_append.mp member with before | new
              · exact before
              · obtain rfl := List.mem_singleton.mp new
                exact absurd same.symm last
            · rfl

/-- A reporter hands over its call, as long as the dispatcher is open. -/
theorem hand_eq {discovery : Discovery} (isOpen : discovery.dispatcher.isOpen = true)
    (reporter : Reporter) :
    discovery.hand reporter = { discovery with dispatcher :=
      { discovery.dispatcher with
        waiting := discovery.dispatcher.waiting ++ reporter.call?.toList } } := by
  unfold hand
  cases reporter.call? with
  | none => simp
  | some call => exact post_eq isOpen call

/-- Nothing but the job is touched when it is over. -/
theorem close_eq (number : Nat) (discovery : Discovery) :
    close number discovery = { discovery with job :=
      if number = discovery.accepted then discovery.job.map Job.close else discovery.job } := by
  unfold close
  split <;> rfl

/-- When an outcome is posted, the job of its search is over, and others are held as before. -/
theorem Held.post (held : Held marks recorded number callback methods seen job)
    {first : Finishing} {finishing : List Finishing} (waiting : List Call)
    (entries : ∀ entry, entry ∈ (recorded.posted ++ [first.entry]) ++
      finishing.map Finishing.entry ↔ entry ∈ recorded.outcomes) :
    ∃ job, Held marks
      { recorded with
        live := { recorded.live with
          discovery := close first.number { recorded.live.discovery with
            dispatcher := { recorded.live.discovery.dispatcher with waiting } }
          finishing }
        posted := recorded.posted ++ [first.entry] } number callback methods seen job := by
  rw [close_eq]
  by_cases same : first.number = number
  · apply Exists.intro job.close
    rcases held.recalls with ⟨rest, recalls, ended⟩
    have member : first.entry ∈ recorded.outcomes := (entries first.entry).mp (by simp)
    rcases ended first.entry member same with ⟨-, -, decided, -⟩
    constructor
    · exact held.asked
    · exact held.made
    · intro last
      simp only at last
      simp only [if_pos (same.trans last), held.kept last, Option.map_some]
    · exact held.parked
    · exact held.follows.close
    · exact held.cancelled
    · apply Exists.intro rest
      apply And.intro recalls.close
      intro entry among which
      rcases ended entry ((entries entry).mp among) which with ⟨output, done, -, reported⟩
      exact ⟨output, done, by rw [Job.stage_close decided]; rfl, reported⟩
    · simp [Job.isFinished, Job.stage_close decided, Finishing.entry, ← same]
  · apply Exists.intro job
    rw [← List.append_nil marks]
    apply held.congr
    · rfl
    · rfl
    · intro last
      simp only at last
      simp only [if_neg (last ▸ same), held.kept last]
    · exact held.parked
    · exact List.not_mem_nil
    · rfl
    · exact fun entry member _ => (entries entry).mp member
    · simp [Finishing.entry, Ne.symm same]

/-- An outcome that is posted has been taken before. -/
theorem Agrees.post (agrees : Agrees marks recorded)
    (stands : Stands marks recorded.live settled standing) (place : Nat) :
    Agrees marks
      { recorded with
        live := recorded.live.post place
        posted := recorded.posted ++ recorded.live.posting (.post place) } := by
  cases found : recorded.live.finishing[place]? with
  | none => simpa [Live.post, Live.posting, found] using agrees
  | some first =>
      by_cases announced : first.announced = true
      · simp only [Live.post, Live.posting, found, if_pos announced]
        have isOpen : recorded.live.discovery.dispatcher.isOpen = true := by
          by_contra closed
          have := (stands.shut (by simpa using closed)).2.1
          simp [this] at found
        have perm : ((recorded.posted ++ [first.entry]) ++
            (recorded.live.finishing.eraseIdx place).map Finishing.entry).Perm
              recorded.outcomes := by
          rcases List.getElem?_eq_some_iff.mp found with ⟨bound, rfl⟩
          have split := (List.getElem_cons_eraseIdx_perm bound).map Finishing.entry
          rw [List.append_assoc]
          exact split.append_left _
        rw [hand_eq isOpen]
        constructor
        · simp only [close_eq]
          exact (perm.map _).trans agrees.numbers
        · simp only [close_eq]
          exact agrees.session
        · simp only [close_eq]
          exact agrees.unseen
        · have posted := (List.subperm_append_right first.reporter.call?.toList).mpr agrees.posted
          have one : [(first.number, first.reporter)].filterMap (fun entry => entry.2.call?) =
              first.reporter.call?.toList := by
            cases called : first.reporter.call? <;> simp [called]
          rw [calls, List.append_assoc] at posted
          rw [close_eq]
          rwa [calls, List.filterMap_append, one]
        · intro number positive below
          simp only [close_eq] at below
          rcases agrees.held number positive below with ⟨callback, methods, seen, job, held⟩
          exact ⟨callback, methods, seen, held.post _ fun _ => perm.mem_iff⟩
      · simpa [Live.post, Live.posting, found, announced] using agrees

/-- A request to stop shows nothing of the methods. -/
theorem trail_request (live : Live) : live.trail (.job .request) = [] := by
  cases present : live.discovery.job <;> simp [Live.trail, present, Job.trail]

/-- Dropping a discovery shows nothing of the methods, either. -/
theorem Agrees.drop (agrees : Agrees marks recorded) :
    Agrees (marks ++ recorded.live.drop.1) { recorded with live := recorded.live.drop.2 } := by
  unfold Live.drop
  split
  · simpa using agrees
  · have asked := agrees.work .request
    simp only [Recorded.trail, trail_request, ite_self, List.append_nil] at asked
    exact asked.aside (recorded.live.work .request).2.calling true

/-! ## All turns -/

/-- Only the turns of the job go on with a history. -/
theorem turn_eq {next : Turn} (recorded : Recorded)
    (silent : recorded.live.trail next = []) :
    recorded.turn next = ((recorded.live.turn next).1,
      { recorded with
        live := (recorded.live.turn next).2
        posted := recorded.posted ++ recorded.live.posting next }) := by
  simp [Recorded.turn, Recorded.trail, silent]

/-- All but one of the others leave the record as it is. -/
theorem turn_live {next : Turn} (recorded : Recorded) (silent : recorded.live.trail next = [])
    (unposted : recorded.live.posting next = []) :
    recorded.turn next =
      ((recorded.live.turn next).1, { recorded with live := (recorded.live.turn next).2 }) := by
  rw [turn_eq recorded silent, unposted, List.append_nil]

/-- Whatever turn is taken, the record goes on to agree. -/
theorem Agrees.turn (agrees : Agrees marks recorded)
    (stands : Stands marks recorded.live settled standing) (next : Turn) :
    Agrees (marks ++ (recorded.turn next).1) (recorded.turn next).2 := by
  cases next with
  | job next =>
      have worked := agrees.work next
      simpa only [Recorded.turn, Live.turn, Live.posting, List.append_nil] using worked
  | search options callback =>
      rw [turn_live recorded rfl rfl]
      simp only [Live.turn]
      split
      · simpa using agrees
      · rename_i present
        exact agrees.ask stands (by simpa using present) options callback
  | nested =>
      rw [turn_live recorded rfl rfl]
      simp only [Live.turn, Live.nested]
      split
      · simpa using agrees
      · rename_i options callback rest calling
        have present : recorded.live.isDropped = false := stands.present (by simp [calling])
        exact (agrees.aside rest recorded.live.isDropped).ask
          (stands.withCalling present rest) present options (some callback)
  | take =>
      rw [turn_live recorded rfl rfl]
      simpa only [Live.turn, List.append_nil] using agrees.take stands
  | announce place =>
      rw [turn_live recorded rfl rfl]
      exact agrees.announce place
  | post place =>
      rw [turn_eq recorded rfl]
      simpa only [Live.turn, List.append_nil] using agrees.post stands place
  | call =>
      rw [turn_live recorded rfl rfl]
      exact agrees.call
  | drop =>
      rw [turn_live recorded rfl rfl]
      exact agrees.drop
  | shut =>
      rw [turn_live recorded rfl rfl]
      simpa only [Live.turn, List.append_nil] using agrees.shut

/-- A record agrees with what can be seen of the discovery that it is about. -/
def Sound (marks : List Mark) (recorded : Recorded) : Prop :=
  Agrees marks recorded ∧ ∃ settled standing, Stands marks recorded.live settled standing

theorem sound_fresh (registry : Registry) (identify : Nat → Session) :
    Sound [] (fresh registry identify) :=
  ⟨.fresh registry identify, _, _, .fresh registry identify⟩

theorem Sound.turn (sound : Sound marks recorded) (next : Turn) :
    Sound (marks ++ (recorded.turn next).1) (recorded.turn next).2 := by
  rcases sound with ⟨agrees, settled, standing, stands⟩
  exact ⟨agrees.turn stands next, stands.turn next⟩

/-- By whatever schedule a discovery works, its record goes on to agree. -/
theorem Sound.workBy (sound : Sound marks recorded) (turns : List Turn) :
    Sound (marks ++ (recorded.workBy turns).1) (recorded.workBy turns).2 :=
  play_preserves (fun _ _ next sound => sound.turn next) turns sound

/-- Keeping a record changes nothing in a discovery. -/
theorem live_workBy (turns : List Turn) (recorded : Recorded) :
    recorded.live.workBy turns =
      ((recorded.workBy turns).1, (recorded.workBy turns).2.live) := by
  induction turns generalizing recorded with
  | nil => rfl
  | cons next rest ih =>
      have later := ih (recorded.turn next).2
      simp only [Live.workBy, Recorded.workBy, play_cons] at later ⊢
      have first : recorded.live.turn next =
          ((recorded.turn next).1, (recorded.turn next).2.live) := rfl
      rw [first, later]

end Recorded

end BridgeFinder.Discovery
