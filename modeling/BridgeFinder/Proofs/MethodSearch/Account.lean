import BridgeFinder.Proofs.Job.Rest
import BridgeFinder.Proofs.MethodSearch.Begun

/-!
# The account of a method that is searched with

However a method is searched with and asked to stop, it executes one task at a time.  A search
is rejected exactly as long as the callback of the one before has not returned.  One that is
accepted reports its start and its end and calls its callback, each once, and says that it was
stopped exactly if a request to stop it was accepted.
-/

namespace BridgeFinder.MethodSearch

open BridgeFinder.Job (Follows wasCancelled)

/-- The task of the search is being executed. -/
def Begun.isExecuting (begun : Begun) : Bool :=
  match begun.current.job.stage with
  | .executing _ => true
  | _ => false

namespace Live

/-- The search that was accepted last hangs until it is asked to stop. -/
def Hangs (live : Live) : Prop :=
  ∃ begun leave, live.begun.head? = some begun ∧
    begun.current.job.stage = .executing (.stall leave)

/-- The account of a method that is searched with, by what can be seen of it and by what has
become of it. -/
structure Account (kind : Kind) (session : Session) (make : Nat → Task Activity (List Bridge))
    (marks : List Mark) (live : Live) : Prop where
  /-- One task is made for every call to search. -/
  made : makings marks = (calls marks).map Prod.fst
  /-- Calls are numbered in their order. -/
  numbered : (calls marks).map Prod.fst = List.range live.made
  /-- At most one task is being executed. -/
  executing : (live.begun.filter Begun.isExecuting).length ≤ 1
  /-- As long as the callback of the search that was accepted last has not returned, a search is
  rejected: nothing but its task comes of it. -/
  rejects : ∀ number, (accepted marks).getLast? = some number → .returned number ∉ marks →
    live.turn .search =
      ([.made live.made, .asked live.made false], { live with made := live.made + 1 })
  /-- Otherwise it is accepted, and its start is reported. -/
  accepts : (∀ number, (accepted marks).getLast? = some number → .returned number ∈ marks) →
    (live.turn .search).1 =
      [.made live.made, .asked live.made true,
        .activity live.made (session.methodStarted kind)]
  /-- Once a request to stop it is accepted, the method is not searching any more, whether or not
  its callback has returned. -/
  stopping : ∀ number, (accepted marks).getLast? = some number → .cancelled number ∈ marks →
    live.method.isSearching = false
  /-- A search that is accepted does what its task does, and reports the output of its task.
  It counts as cancelled exactly if a request to stop it was accepted. -/
  unfolds : ∀ number ∈ accepted marks, ∃ seen report,
    Unfolds kind session (make number) number marks seen report ∧
      (wasCancelled seen = true ↔ .cancelled number ∈ marks)
  /-- Nothing is seen of a search that was rejected, and its task is not executed. -/
  unseen : ∀ number, (number, false) ∈ calls marks →
    trace number marks = [] ∧ ∀ begun ∈ live.begun, begun.number ≠ number
  /-- At rest the callback of every search that was accepted has returned, unless the last one
  hangs and has not been asked to stop. -/
  rest : live.Rests → ∀ number ∈ accepted marks,
    (∃ seen outcome, Unfolds kind session (make number) number marks seen (.returned outcome)) ∨
      live.Hangs ∧ (accepted marks).getLast? = some number ∧ .cancelled number ∉ marks
  /-- By itself the method comes to rest. -/
  settles : ∃ turns, (∀ next ∈ turns, next.isOwn = true) ∧ (live.workBy turns).2.Rests

variable {kind : Kind} {session : Session} {make : Nat → Task Activity (List Bridge)}
  {task : Task Activity (List Bridge)} {job : Job Activity (List Bridge)} {report : Report}
  {marks : List Mark} {live : Live} {begun : Begun} {place number : Nat}
  {seen : List (Job.Mark Activity)}

/-! ## What the trace of a search shows -/

theorem mem_trace {mark : Mark} (about : mark.number? = some number) :
    mark ∈ trace number marks ↔ mark ∈ marks := by
  simp [trace, about]

namespace Unfolds

/-- The callback has returned exactly if it has been seen to. -/
theorem returned_mem (unfolds : Unfolds kind session task number marks seen report) :
    .returned number ∈ marks ↔ report.isReturned = true := by
  rw [← mem_trace rfl, unfolds.trace]
  have outside : Mark.returned number ∉ seen.map (Mark.ofJob number) := by
    intro member
    rcases List.mem_map.mp member with ⟨mark, -, same⟩
    cases mark <;> cases same
  cases report <;> simp [outside, Report.marks, Report.isReturned]

/-- A request to stop the search was accepted exactly if it has been seen to be. -/
theorem cancelled_mem (unfolds : Unfolds kind session task number marks seen report) :
    .cancelled number ∈ marks ↔ wasCancelled seen = true := by
  rw [← mem_trace rfl, unfolds.trace]
  have outside : Mark.cancelled number ∉ report.marks kind session number := by
    cases report <;> simp [Report.marks]
  have inside : Mark.cancelled number ∈ seen.map (Mark.ofJob number) ↔
      wasCancelled seen = true := by
    simp only [List.mem_map, wasCancelled, List.any_eq_true]
    apply exists_congr
    intro mark
    apply and_congr_right
    intro _
    cases mark <;> simp [Mark.ofJob, Job.Mark.isCancelled]
  simp [outside, inside]

end Unfolds

/-! ## The search that was accepted last -/

/-- The search that was accepted last is in the first place. -/
theorem Stands.last (stands : Stands kind session make marks live) :
    (accepted marks).getLast? = live.begun.head?.map Begun.number := by
  rw [stands.accepted_eq, List.getLast?_reverse, List.head?_map]

/-- The method is free exactly if the callback of the last search has returned. -/
theorem Stands.isFree_iff (stands : Stands kind session make marks live) :
    live.method.isFree = true ↔
      ∀ number, (accepted marks).getLast? = some number → .returned number ∈ marks := by
  rw [stands.last]
  cases list : live.begun with
  | nil => simp [method, isFree, list]
  | cons last rest =>
      have works := stands.works last (list ▸ List.mem_cons_self)
      have finished := works.isReturned
      rcases works with ⟨seen, -, unfolds, isAt⟩
      simp only [method, isFree, list, List.head?_cons, Option.map_some, Option.all_some,
        Option.some.injEq, forall_eq', unfolds.returned_mem]
      constructor
      · exact finished
      · intro returned
        cases report : last.report with
        | awaited | announced | called =>
            rw [report] at returned
            cases returned
        | returned outcome =>
            rw [report] at isAt
            exact isFinished_iff.mpr isAt

/-- A search that was asked to stop is not going on any more. -/
theorem Stands.stopping (stands : Stands kind session make marks live)
    (last : (accepted marks).getLast? = some number) (cancelled : .cancelled number ∈ marks) :
    live.method.isSearching = false := by
  rw [stands.last] at last
  cases list : live.begun with
  | nil => simp [list] at last
  | cons first rest =>
      obtain rfl : first.number = number := by simpa [list] using last
      rcases stands.works first (list ▸ List.mem_cons_self) with ⟨seen, follows, unfolds, -⟩
      have state := follows.state_eq_cancelled_iff.mpr (unfolds.cancelled_mem.mp cancelled)
      simp [method, isSearching, list, Job.isRunning, state]

/-! ## All searches -/

/-- A search whose callback has returned executes nothing. -/
theorem Works.not_isExecuting
    (works : Works kind session task number marks begun.current.job begun.report)
    (returned : begun.report.isReturned = true) : begun.isExecuting = false := by
  rcases works with ⟨seen, -, -, isAt⟩
  cases report : begun.report with
  | awaited | announced | called =>
      rw [report] at returned
      cases returned
  | returned outcome =>
      rw [report] at isAt
      rw [Begun.isExecuting, show begun.current.job.stage = _ from isAt]

/-- At most one task is being executed. -/
theorem Stands.executing (stands : Stands kind session make marks live) :
    (live.begun.filter Begun.isExecuting).length ≤ 1 := by
  have order := stands.order
  have works := stands.works
  cases list : live.begun with
  | nil => exact Nat.zero_le 1
  | cons last rest =>
      rw [list] at order works
      have none : rest.filter Begun.isExecuting = [] := by
        apply List.filter_eq_nil_iff.mpr
        intro older member
        have returned := ((List.pairwise_cons.mp order).1 older member).2
        simpa using (works older (List.mem_cons_of_mem _ member)).not_isExecuting returned
      rw [List.filter_cons, none]
      split <;> simp

/-- The searches that were accepted are those that have begun. -/
theorem Stands.mem_accepted (stands : Stands kind session make marks live) :
    number ∈ accepted marks ↔ ∃ begun ∈ live.begun, begun.number = number := by
  rw [stands.accepted_eq, List.mem_reverse, List.mem_map]

/-- A call is either accepted or rejected. -/
theorem Stands.not_accepted (stands : Stands kind session make marks live)
    (rejected : (number, false) ∈ calls marks) : number ∉ accepted marks := by
  intro member
  rcases List.mem_map.mp member with ⟨call, kept, same⟩
  rcases List.mem_filter.mp kept with ⟨there, yes⟩
  have distinct : ((calls marks).map Prod.fst).Nodup := by
    rw [stands.calls_eq]
    exact List.nodup_range
  have equal : call = (number, false) :=
    List.inj_on_of_nodup_map distinct there rejected same
  rw [equal] at yes
  cases yes

/-! ## A method at rest -/

namespace Rests

/-- At rest, no turn of a job of its own changes it. -/
theorem turn_job (rests : live.Rests) (found : live.begun[place]? = some begun) {next : Job.Turn}
    (own : next ≠ .request) : (begun.current.job.turn next).2 = begun.current.job := by
  have isOwn : (Turn.job place next).isOwn = true := by
    cases next with
    | request => exact absurd rfl own
    | fire | go | release | decide => rfl
  have same := congrArg (fun step => step.2.begun[place]?) (rests (.job place next) isOwn)
  simp only [Live.turn, work, found, List.getElem?_set_self
    (List.getElem?_eq_some_iff.mp found).1, Option.some.injEq] at same
  exact congrArg (fun begun => begun.current.job) same

/-- At rest, every report has been made, or there is nothing to report yet. -/
theorem isReturned (rests : live.Rests) (found : live.begun[place]? = some begun) :
    begun.report.isReturned = true ∨
      begun.report = .awaited ∧ begun.current.job.outcome? = none := by
  cases report : begun.report with
  | returned => exact .inl rfl
  | called =>
      have same := congrArg Prod.fst (rests (.back place) rfl)
      simp [Live.turn, back, found, report] at same
  | announced =>
      have same := congrArg Prod.fst (rests (.call place) rfl)
      simp [Live.turn, call, found, report] at same
  | awaited =>
      cases decided : begun.current.job.outcome? with
      | none => exact .inr ⟨rfl, rfl⟩
      | some outcome =>
          have same := congrArg Prod.fst (rests (.announce place) rfl)
          simp [Live.turn, announce, found, report, decided] at same

end Rests

theorem Stands.rest (stands : Stands kind session make marks live) (rests : live.Rests)
    (member : number ∈ accepted marks) :
    (∃ seen outcome, Unfolds kind session (make number) number marks seen (.returned outcome)) ∨
      live.Hangs ∧ (accepted marks).getLast? = some number ∧ .cancelled number ∉ marks := by
  rcases stands.mem_accepted.mp member with ⟨begun, there, rfl⟩
  rcases List.getElem?_of_mem there with ⟨place, found⟩
  rcases stands.works begun there with ⟨seen, follows, unfolds, isAt⟩
  rcases rests.isReturned found with returned | ⟨awaited, undecided⟩
  · left
    cases report : begun.report with
    | awaited | announced | called =>
        rw [report] at returned
        cases returned
    | returned outcome =>
        rw [report] at unfolds
        exact ⟨seen, outcome, unfolds⟩
  · right
    rw [awaited] at isAt
    rcases follows.cases_of_idle (fun next own => rests.turn_job found own) with
      ⟨outcome, decided⟩ | finished | ⟨⟨leave, stage⟩, running, -⟩
    · rw [undecided] at decided
      cases decided
    · exact absurd (isFinished_iff.mp finished) isAt
    · have first : live.begun.head? = some begun := by
        have order := stands.order
        cases list : live.begun with
        | nil =>
            rw [list] at there
            cases there
        | cons last rest =>
            rw [list] at there order
            rcases List.mem_cons.mp there with rfl | earlier
            · rfl
            · have returned := ((List.pairwise_cons.mp order).1 begun earlier).2
              rw [awaited] at returned
              cases returned
      constructor
      · exact ⟨begun, leave, first, stage⟩
      · constructor
        · rw [stands.last, first]
          rfl
        · rw [unfolds.cancelled_mem]
          simp [(follows.of_running running).1]

/-! ## Coming to rest -/

/-- What is left of the report on a search. -/
def remaining : Report → Nat
  | .awaited => 3
  | .announced _ => 2
  | .called _ => 1
  | .returned _ => 0

/-- What is left of a search. -/
def weight (begun : Begun) : Nat :=
  begun.current.job.weight + remaining begun.report

/-- What is left of several searches. -/
def weightOf (members : List Begun) : Nat :=
  members.foldr (fun begun total => weight begun + total) 0

/-- What is left of all searches. -/
def leftover (live : Live) : Nat :=
  weightOf live.begun

/-- Less is left of several searches where less is left of one of them. -/
theorem weightOf_set_lt {members : List Begun} {place : Nat} {old new : Begun}
    (found : members[place]? = some old) (less : weight new < weight old) :
    weightOf (members.set place new) < weightOf members := by
  induction members generalizing place with
  | nil => cases found
  | cons first rest ih =>
      cases place with
      | zero =>
          cases found
          exact Nat.add_lt_add_right less _
      | succ place => exact Nat.add_lt_add_left (ih found) _

/-- A turn of its own changes nothing in a method, or leaves less of its searches. -/
theorem leftover_turn {next : Turn} (own : next.isOwn = true) (live : Live) :
    live.turn next = ([], live) ∨ (live.turn next).2.leftover < live.leftover := by
  cases next with
  | search => cases own
  | job place turn =>
      cases found : live.begun[place]? with
      | none => exact .inl (by simp only [Live.turn, work, found])
      | some begun =>
          have another : turn ≠ .request := by
            rintro rfl
            cases own
          simp only [Live.turn, work, found]
          rcases (Job.step_turn turn begun.current.job).weight another with ⟨none, same⟩ | less
          · left
            rcases List.getElem?_eq_some_iff.mp found with ⟨bound, rfl⟩
            rw [none, same, List.set_getElem_self]
            rfl
          · exact .inr (weightOf_set_lt found (Nat.add_lt_add_right less _))
  | announce place =>
      cases found : live.begun[place]? with
      | none => exact .inl (by simp only [Live.turn, announce, found])
      | some begun =>
          cases report : begun.report with
          | announced | called | returned =>
              exact .inl (by simp only [Live.turn, announce, found, report])
          | awaited =>
              cases decided : begun.current.job.outcome? with
              | none => exact .inl (by simp only [Live.turn, announce, found, report, decided])
              | some outcome =>
                  right
                  simp only [Live.turn, announce, found, report, decided]
                  apply weightOf_set_lt found
                  simp [weight, report, remaining]
  | call place =>
      cases found : live.begun[place]? with
      | none => exact .inl (by simp only [Live.turn, call, found])
      | some begun =>
          cases report : begun.report with
          | awaited | called | returned =>
              exact .inl (by simp only [Live.turn, call, found, report])
          | announced outcome =>
              right
              simp only [Live.turn, call, found, report]
              apply weightOf_set_lt found
              simp [weight, report, remaining]
  | back place =>
      cases found : live.begun[place]? with
      | none => exact .inl (by simp only [Live.turn, back, found])
      | some begun =>
          cases report : begun.report with
          | awaited | announced | returned =>
              exact .inl (by simp only [Live.turn, back, found, report])
          | called outcome =>
              right
              simp only [Live.turn, back, found, report]
              apply weightOf_set_lt found
              simp only [weight, report, remaining]
              exact Nat.add_lt_add_of_le_of_lt (Job.weight_close _) Nat.zero_lt_one

/-- By itself, a method comes to rest. -/
theorem exists_rests (live : Live) :
    ∃ turns, (∀ next ∈ turns, next.isOwn = true) ∧ (live.workBy turns).2.Rests :=
  exists_play_rests (measure leftover).wf (fun _ own live => leftover_turn own live) live

/-! ## The account -/

/-- How a method stands is its account. -/
theorem Stands.account (stands : Stands kind session make marks live) :
    Account kind session make marks live where
  made := stands.makings_eq.trans stands.calls_eq.symm
  numbered := stands.calls_eq
  executing := stands.executing
  rejects number last unreturned := by
    apply search_of_not_isFree
    rw [← Bool.not_eq_true, stands.isFree_iff]
    intro returned
    exact unreturned (returned number last)
  accepts returned := by
    have free := stands.isFree_iff.mpr returned
    simp only [Live.turn, search_of_isFree free, stands.kind_eq, stands.session_eq]
  stopping _ := stands.stopping
  unfolds number member := by
    rcases stands.mem_accepted.mp member with ⟨begun, there, rfl⟩
    rcases stands.works begun there with ⟨seen, -, unfolds, -⟩
    exact ⟨seen, begun.report, unfolds, unfolds.cancelled_mem.symm⟩
  unseen number rejected := by
    have unknown : ∀ begun ∈ live.begun, begun.number ≠ number := by
      intro begun there same
      exact stands.not_accepted rejected (stands.mem_accepted.mpr ⟨begun, there, same⟩)
    exact ⟨stands.others number unknown, unknown⟩
  rest rests _ member := stands.rest rests member
  settles := live.exists_rests

/-- However a method is searched with and asked to stop, whatever its tasks are, it comes to its
account. -/
theorem searched_account (kind : Kind) (session : Session)
    (make : Nat → Task Activity (List Bridge)) (turns : List Turn) :
    let work := Live.workBy turns { kind, session, make }
    Account kind session make work.1 work.2 :=
  (stands_workBy kind session make turns).account

end Live

end BridgeFinder.MethodSearch
