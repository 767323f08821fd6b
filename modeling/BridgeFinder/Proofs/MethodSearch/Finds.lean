import BridgeFinder.Proofs.MethodSearch.Account
import BridgeFinder.Proofs.Search.Finds
import BridgeFinder.Proofs.Search.Reports

/-!
# What is reported of a search and what it delivers

A method of one of the four kinds is searched with again and again.  Between the report of its start
and that of its end, each search that is accepted reports nothing but bridges, and it delivers a
bridge as often as it has reported one at its address, whether or not it was asked to stop.
-/

namespace BridgeFinder.MethodSearch.Live

open BridgeFinder.Telemetry (bridgeIps)

/-- What a search does. -/
def Mark.activity? : Mark → Option Activity
  | activity _ done => some done
  | _ => none

/-- The events that are reported of one search. -/
def reported (number : Nat) (marks : List Mark) : List Telemetry.Event :=
  Activity.events ((trace number marks).filterMap Mark.activity?)

/-- What is reported of one search, and what it delivers. -/
structure Findings (session : Session) (kind : Kind) (number : Nat) (marks : List Mark)
    (between ending : List Telemetry.Event) : Prop where
  /-- The start comes first, and the end is reported last, at most once. -/
  sequence : reported number marks =
    .methodStarted session.request kind :: (between ++ ending)
  ended : ending = [] ∨
    ∃ status, ending = [.methodFinished session.request kind session.elapsed status]
  /-- In between, only bridges are reported. -/
  found : ∀ event ∈ between, ∃ ip, event = session.bridgeFound kind ip
  /-- When the bridges are delivered, the end has been reported, and the bridges have been reported
  at their addresses. -/
  delivered : ∀ delivery, .called delivery ∈ marks → delivery.name = number →
    ∃ cancelled, delivery.code = .ofCancelled cancelled ∧
      ending = [.methodFinished session.request kind session.elapsed (.ofCancelled cancelled)] ∧
      (bridgeIps between).Perm (delivery.results.map Bridge.ip)

/-- What is reported of all searches that were accepted, and what they deliver. -/
structure Reports (session : Session) (kind : Kind) (marks : List Mark) (live : Live) : Prop where
  findings : ∀ number ∈ accepted marks, ∃ between ending,
    Findings session kind number marks between ending
  /-- At rest every one has delivered, unless the last one hangs and has not been asked to stop. -/
  rest : live.Rests → ∀ number ∈ accepted marks,
    (∃ delivery, .called delivery ∈ marks ∧ delivery.name = number) ∨
      live.Hangs ∧ (accepted marks).getLast? = some number ∧ .cancelled number ∉ marks
  /-- By itself the method comes to rest. -/
  settles : ∃ turns, (∀ next ∈ turns, next.isOwn = true) ∧ (live.workBy turns).2.Rests

section

variable {kind : Kind} {session : Session} {task : Task Activity (List Bridge)} {number : Nat}
  {marks : List Mark} {seen : List (Job.Mark Activity)} {report : Report}

/-- What a job does is what the marks of its search show. -/
theorem filterMap_ofJob (number : Nat) (seen : List (Job.Mark Activity)) :
    (seen.map (Mark.ofJob number)).filterMap Mark.activity? = Job.signals seen := by
  rw [List.filterMap_map, Job.signals]
  apply List.filterMap_congr
  rintro (done | _) _ <;> rfl

/-- What is reported of a search is what its job reports, between its start and its end. -/
theorem Unfolds.reported_eq (unfolds : Unfolds kind session task number marks seen report) :
    reported number marks = .methodStarted session.request kind ::
      (Activity.events (Job.signals seen) ++
        Activity.events ((report.marks kind session number).filterMap Mark.activity?)) := by
  rw [reported, unfolds.trace, List.cons_append, List.filterMap_cons, List.filterMap_append,
    filterMap_ofJob]
  simp [Mark.activity?, Session.methodStarted]

/-- What a search delivers is what it has come to report. -/
theorem Unfolds.report_of_called (unfolds : Unfolds kind session task number marks seen report)
    {delivery : Delivery Nat} (called : .called delivery ∈ marks) (named : delivery.name = number) :
    ∃ outcome, report.outcome? = some outcome ∧ delivery.results = outcome.output ∧
      delivery.code = .ofCancelled outcome.cancelled := by
  have numbered : (Mark.called delivery).number? = some number := congrArg some named
  have traced : Mark.called delivery ∈ Live.trace number marks := (mem_trace numbered).mpr called
  have outside : Mark.called delivery ∉ seen.map (Mark.ofJob number) := by
    intro member
    rcases List.mem_map.mp member with ⟨mark, -, same⟩
    cases mark <;> cases same
  simp only [unfolds.trace, List.cons_append, List.mem_cons, reduceCtorEq, List.mem_append, outside,
    false_or] at traced
  cases report with
  | awaited => cases traced
  | announced outcome => simp [Report.marks] at traced
  | called outcome | returned outcome =>
      obtain rfl : delivery = _ := by simpa [Report.marks] using traced
      exact ⟨outcome, rfl, rfl, rfl⟩

/-- A search whose callback has returned has delivered. -/
theorem Unfolds.exists_called {outcome : Outcome (List Bridge)}
    (unfolds : Unfolds kind session task number marks seen (.returned outcome)) :
    ∃ delivery, .called delivery ∈ marks ∧ delivery.name = number := by
  refine ⟨⟨number, outcome.output, .ofCancelled outcome.cancelled⟩, ?_, rfl⟩
  rw [← mem_trace rfl, unfolds.trace]
  simp [Report.marks]

/-- The end of a search is reported at most once. -/
theorem ending_cases (kind : Kind) (session : Session) (number : Nat) (report : Report) :
    let ending := Activity.events ((report.marks kind session number).filterMap Mark.activity?)
    ending = [] ∨ ∃ status, ending =
      [.methodFinished session.request kind session.elapsed status] := by
  cases report with
  | awaited => exact .inl rfl
  | announced outcome | called outcome | returned outcome => exact .inr ⟨_, rfl⟩

end

variable {π : Type} {network : Network π} {settings : Settings} {kind : Kind} {session : Session}
  {number : Nat} {marks : List Mark} {seen : List (Job.Mark Activity)} {report : Report}

/-- One of the four methods reports what it delivers. -/
theorem Unfolds.findings
    (unfolds : Unfolds kind session (Search.ofKind network settings session kind) number marks seen
      report) :
    Findings session kind number marks (Activity.events (Job.signals seen))
      (Activity.events ((report.marks kind session number).filterMap Mark.activity?)) := by
  rcases unfolds.course with ⟨observed, token, rest, course, same, ended⟩
  constructor
  case sequence => exact unfolds.reported_eq
  case ended => exact ending_cases kind session number report
  case found =>
    intro event member
    rcases List.mem_filterMap.mp member with ⟨activity, done, reported⟩
    have finds := (Search.always_ofKind_finds session kind false observed _ course).1 activity
    rw [same] at finds
    exact finds done event reported
  case delivered =>
    intro delivery called named
    rcases unfolds.report_of_called called named with ⟨outcome, reported, results, code⟩
    refine ⟨outcome.cancelled, code, ?_, ?_⟩
    · cases report with
      | awaited => cases reported
      | announced | called | returned =>
          cases reported
          rfl
    · rw [results, ← same]
      exact Search.yields_ofKind false observed _ _ course (ended outcome reported)

/-- However a method of one of the four kinds is searched with and asked to stop, whatever the
network does, each search delivers the bridges that it has reported. -/
theorem searched_reports (network : Network π) (settings : Settings) (kind : Kind)
    (session : Session) (turns : List Turn) :
    let work := Live.workBy turns
      { kind, session, make := fun _ => Search.ofKind network settings session kind }
    Reports session kind work.1 work.2 := by
  intro work
  have account : Account kind session (fun _ => Search.ofKind network settings session kind)
      work.1 work.2 := (stands_workBy kind session _ turns).account
  constructor
  · intro number member
    rcases account.unfolds number member with ⟨seen, report, unfolds, -⟩
    exact ⟨_, _, unfolds.findings⟩
  · intro rests number member
    apply (account.rest rests number member).imp_left
    rintro ⟨seen, outcome, unfolds⟩
    exact unfolds.exists_called
  · exact account.settles

end BridgeFinder.MethodSearch.Live
