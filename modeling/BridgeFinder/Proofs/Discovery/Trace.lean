import BridgeFinder.Proofs.Discovery.Driven
import BridgeFinder.Proofs.Discovery.Told

/-!
# The telemetry trace of a discovery

The trace holds one record for every search that was accepted: it starts, its methods have their
parts one after another, and it ends.  The records of different searches are told apart by their
request ids.  Where no search is accepted while another one is just being finished, the records
follow one another in the order in which the searches were accepted.  Otherwise a search may start
before the one before it has ended.
-/

namespace BridgeFinder

/-- An event of a search as a whole, and not of one of its methods. -/
def Telemetry.Event.isOuter : Telemetry.Event → Bool
  | .discoveryStarted .. | .discoveryFinished .. => true
  | _ => false

theorem Part.isOuter_eq_false {session : Session} {part : Part} {event : Telemetry.Event}
    (member : event ∈ part.events session) : event.isOuter = false := by
  simp only [Part.events, List.mem_cons, List.mem_append, List.mem_map, List.not_mem_nil,
    or_false] at member
  rcases member with rfl | ⟨ip, -, rfl⟩ | rfl <;> rfl

/-- What is reported of a search. -/
structure Record where
  session : Session
  parts : List Part
  status : Telemetry.Status

namespace Record

/-- The events of a record. -/
def events (record : Record) : List Telemetry.Event :=
  .discoveryStarted record.session.request ::
    (record.parts.flatMap (Part.events record.session) ++
      [.discoveryFinished record.session.request record.session.elapsed record.status])

/-- A search as a whole starts and ends. -/
theorem filter_events (record : Record) : record.events.filter Telemetry.Event.isOuter =
    [.discoveryStarted record.session.request,
      .discoveryFinished record.session.request record.session.elapsed record.status] := by
  have none : (record.parts.flatMap (Part.events record.session)).filter
      Telemetry.Event.isOuter = [] := by
    rw [List.filter_eq_nil_iff]
    intro event member
    rcases List.mem_flatMap.mp member with ⟨part, -, there⟩
    simp [Part.isOuter_eq_false there]
  rw [events, List.filter_cons_of_pos rfl, List.filter_append, none]
  rfl

/-- The parts of a regular record ascend by priority.  Only the last one may be cancelled, and
then the search is cancelled, too. -/
structure Regular (record : Record) : Prop where
  ascending : record.parts.Pairwise fun first second =>
    first.kind.priority ≤ second.kind.priority
  completed : ∀ part ∈ record.parts.dropLast, part.status = .completed
  cancelled : ∀ part ∈ record.parts, part.status = .cancelled → record.status = .cancelled

end Record

namespace Discovery

namespace Recorded

open BridgeFinder.Job (Follows Recalls wasCancelled)

variable {marks : List Mark} {recorded other : Recorded} {number : Nat}

@[simp]
theorem registry_turn (next : Turn) (recorded : Recorded) :
    (recorded.turn next).2.live.discovery.registry = recorded.live.discovery.registry :=
  (recorded.live.keeps_turn next).registry

@[simp]
theorem identify_turn (next : Turn) (recorded : Recorded) :
    (recorded.turn next).2.live.discovery.identify = recorded.live.discovery.identify :=
  (recorded.live.keeps_turn next).identify

/-- A discovery keeps its registry and how it identifies its searches. -/
theorem fixed_workBy (turns : List Turn) (recorded : Recorded) :
    (recorded.workBy turns).2.live.discovery.registry = recorded.live.discovery.registry ∧
      (recorded.workBy turns).2.live.discovery.identify = recorded.live.discovery.identify := by
  induction turns generalizing recorded with
  | nil => exact ⟨rfl, rfl⟩
  | cons next rest ih =>
      have later := ih (recorded.turn next).2
      rwa [registry_turn, identify_turn] at later

/-! ## The record of a search -/

/-- A record recounts a search that was accepted, of which `row` has been reported. -/
structure Recounts (marks : List Mark) (recorded : Recorded) (number : Nat)
    (row : List Telemetry.Event) (record : Record) : Prop where
  session : record.session = recorded.live.discovery.identify (number - 1)
  regular : record.Regular
  /-- What has been reported is the record, as far as it has come. -/
  part : row <+: record.events
  /-- Once the outcome has been reported, it is all of the record. -/
  whole : number ∈ recorded.announced.map Prod.fst → row = record.events
  /-- The search is recorded as cancelled exactly if a request to stop it was accepted. -/
  status : record.status = .cancelled ↔ .cancelled number ∈ marks
  /-- The outcome is reported with the status of the record, and the callback is called with
  `Stopped` exactly if this is that the search was cancelled. -/
  answered : ∀ entry ∈ recorded.outcomes, entry.1 = number →
    ∃ callback methods results, .asked ⟨callback, .accepted number methods⟩ ∈ marks ∧
      entry.2.reports = [record.session.finished record.status] ∧
      entry.2.call? = some ⟨callback, results,
        if record.status = .cancelled then .stopped else .success⟩

/-- A record recounts what is told of a search. -/
theorem Sound.exists_recounts (sound : Sound marks recorded)
    (reports : recorded.live.discovery.registry.Reports) (positive : 0 < number)
    (below : number ≤ recorded.live.discovery.accepted) :
    ∃ record, Recounts marks recorded number (recorded.told number) record := by
  have agrees := sound.1
  rcases agrees.held number positive below with ⟨callback, methods, seen, job, held⟩
  rcases held.made with ⟨options, rfl⟩
  rcases held.recalls with ⟨rest, recalls, ended⟩
  rcases Runner.exists_parts (fun method => reports.resolve) recalls.course with
    ⟨parts, consists, whole⟩
  let record : Record :=
    { session := recorded.live.discovery.identify (number - 1)
      parts
      status := .ofCancelled (wasCancelled seen) }
  have status : record.status = .cancelled ↔ wasCancelled seen = true := by
    change Telemetry.Status.ofCancelled (wasCancelled seen) = .cancelled ↔ _
    cases wasCancelled seen <;> decide
  have reported (entry : Nat × Reporter) (member : entry ∈ recorded.outcomes)
      (same : entry.1 = number) : entry.2.reports = [record.session.finished record.status] := by
    rcases ended entry member same with ⟨output, -, -, reporter⟩
    rw [reporter]
    rfl
  have all (ending : number ∈ recorded.announced.map Prod.fst) :
      recorded.told number = record.events := by
    rcases List.mem_map.mp ending with ⟨entry, there, same⟩
    have member := mem_outcomes_of_announced there
    rcases ended entry member same with ⟨output, done, -, -⟩
    have closed : recorded.closing number =
        [.discoveryFinished record.session.request record.session.elapsed record.status] := by
      rw [closing, ← same, filter_eq_singleton agrees.nodup_announced there, List.flatMap_singleton,
        reported entry member same]
      rfl
    rw [Recorded.told, if_pos ⟨positive, below⟩, closed, whole output done]
    rfl
  apply Exists.intro record
  constructor
  · rfl
  · constructor
    · exact consists.ascending
    · exact consists.completed
    · intro part member cancelled
      rw [status]
      apply held.follows.token
      exact recalls.course.token_iff.mpr (.inr (consists.cancelled part member cancelled))
  · by_cases ending : number ∈ recorded.announced.map Prod.fst
    · rw [all ending]
    · rw [Recorded.told, if_pos ⟨positive, below⟩, closing_eq_nil ending, List.append_nil]
      exact List.cons_prefix_cons.mpr ⟨rfl, consists.told.trans (List.prefix_append _ _)⟩
  · exact all
  · exact status.trans held.cancelled.symm
  · intro entry member same
    rcases ended entry member same with ⟨⟨results, left⟩, -, -, reporter⟩
    refine ⟨callback, _, results, held.asked, reported entry member same, ?_⟩
    have code : ReturnCode.ofCancelled (wasCancelled seen) =
        if record.status = .cancelled then .stopped else .success := by
      rw [ReturnCode.ofCancelled]
      simp only [status]
    rw [reporter, Reporter.call?, Option.map_some, code]

/-- Every search that was accepted has a record that recounts what is told of it. -/
theorem Sound.exists_records (sound : Sound marks recorded)
    (reports : recorded.live.discovery.registry.Reports) :
    ∃ record : Nat → Record, ∀ number, 0 < number → number ≤ recorded.live.discovery.accepted →
      Recounts marks recorded number (recorded.told number) (record number) := by
  have each (number : Nat) : ∃ record, 0 < number → number ≤ recorded.live.discovery.accepted →
      Recounts marks recorded number (recorded.told number) record := by
    by_cases known : 0 < number ∧ number ≤ recorded.live.discovery.accepted
    · rcases sound.exists_recounts reports known.1 known.2 with ⟨record, recounts⟩
      exact ⟨record, fun _ _ => recounts⟩
    · exact ⟨⟨default, [], .completed⟩, fun positive below => absurd ⟨positive, below⟩ known⟩
  exact ⟨fun number => (each number).choose, fun number => (each number).choose_spec⟩

/-! ## Telling the searches apart -/

/-- All events of a record are those of its session. -/
theorem request_of_record {record : Record} {event : Telemetry.Event}
    (member : event ∈ record.events) : event.request = record.session.request := by
  simp only [Record.events, List.mem_cons, List.mem_append, List.mem_flatMap, List.not_mem_nil,
    or_false] at member
  rcases member with rfl | ⟨part, -, there⟩ | rfl
  · rfl
  · exact Part.request_eq there
  · rfl

/-- All that is told of a search is told of its session. -/
theorem Sound.request_of_told (sound : Sound marks recorded)
    (reports : recorded.live.discovery.registry.Reports) {event : Telemetry.Event}
    (member : event ∈ recorded.told number) :
    event.request = (recorded.live.discovery.identify (number - 1)).request := by
  have known : 0 < number ∧ number ≤ recorded.live.discovery.accepted := by
    by_contra unknown
    rw [Recorded.told, if_neg unknown] at member
    cases member
  rcases sound.exists_recounts reports known.1 known.2 with ⟨record, recounts⟩
  rw [request_of_record (recounts.part.subset member), recounts.session]

/-- Every event of the trace is told of one search, and its request id says of which one. -/
structure Sorted (marks : List Mark) (recorded : Recorded) : Prop where
  filter : ∀ number, 0 < number → ((events marks).filter fun event =>
    event.request = (recorded.live.discovery.identify (number - 1)).request) = recorded.told number
  own : ∀ event ∈ events marks, ∃ number, 0 < number ∧
    number ≤ recorded.live.discovery.accepted ∧
      event.request = (recorded.live.discovery.identify (number - 1)).request

theorem Sorted.turn (sorted : Sorted marks recorded) (sound : Sound marks recorded)
    (reports : recorded.live.discovery.registry.Reports)
    (distinct : ∀ first second, (recorded.live.discovery.identify first).request =
      (recorded.live.discovery.identify second).request → first = second) (next : Turn) :
    Sorted (marks ++ (recorded.turn next).1) (recorded.turn next).2 := by
  have later : recorded.live.discovery.accepted ≤
      (recorded.turn next).2.live.discovery.accepted := by
    rcases (recorded.live.keeps_turn next).job with ⟨-, grown⟩ | ⟨same, -⟩
    · exact Nat.le_of_lt (Nat.lt_of_lt_of_eq (Nat.lt_succ_self _) grown.symm)
    · exact Nat.le_of_eq same.symm
  rcases sound.exists_tells next with ⟨teller, tells⟩
  have row (event : Telemetry.Event) (member : event ∈ events (recorded.turn next).1) :
      event.request = (recorded.live.discovery.identify (teller - 1)).request := by
    rw [← identify_turn next]
    apply (sound.turn next).request_of_told
    · rwa [registry_turn]
    · rw [tells.told, if_pos rfl]
      exact List.mem_append_right _ member
  have known (some : events (recorded.turn next).1 ≠ []) := tells.known some
  constructor
  · intro number positive
    rw [events_append, List.filter_append, identify_turn, sorted.filter number positive,
      tells.told]
    congr 1
    split
    · rename_i same
      rw [List.filter_eq_self]
      intro event member
      simp [row event member, same]
    · rename_i other
      rw [List.filter_eq_nil_iff]
      intro event member
      have some : events (recorded.turn next).1 ≠ [] := List.ne_nil_of_mem member
      simp only [row event member, decide_eq_true_eq]
      intro same
      have := distinct _ _ same
      have := (known some).1
      omega
  · intro event member
    rw [events_append, List.mem_append] at member
    rw [identify_turn]
    rcases member with before | new
    · rcases sorted.own event before with ⟨number, positive, below, request⟩
      exact ⟨number, positive, Nat.le_trans below later, request⟩
    · rcases known (List.ne_nil_of_mem new) with ⟨positive, below⟩
      exact ⟨teller, positive, below, row event new⟩

theorem Sorted.workBy (sorted : Sorted marks recorded) (sound : Sound marks recorded)
    (reports : recorded.live.discovery.registry.Reports)
    (distinct : ∀ first second, (recorded.live.discovery.identify first).request =
      (recorded.live.discovery.identify second).request → first = second) (turns : List Turn) :
    Sorted (marks ++ (recorded.workBy turns).1) (recorded.workBy turns).2 := by
  induction turns generalizing marks recorded with
  | nil => simpa [Recorded.workBy] using sorted
  | cons next rest ih =>
      have later := ih (sorted.turn sound reports distinct next) (sound.turn next)
        (by rwa [registry_turn]) (by rwa [identify_turn])
      simpa [Recorded.workBy, play_cons] using later

/-! ## One search after the other -/

/-- The trace tells of one search after the other, and only the last one is still to end. -/
structure Ordered (marks : List Mark) (recorded : Recorded) : Prop where
  last : ∀ finishing ∈ recorded.live.finishing, finishing.announced = false →
    finishing.number = recorded.live.discovery.accepted
  trace : events marks = (List.range' 1 recorded.live.discovery.accepted).flatMap recorded.told

/-- Nothing is told of a search that has not been accepted. -/
theorem told_eq_nil (later : recorded.live.discovery.accepted < number) :
    recorded.told number = [] := by
  rw [told, if_neg]
  omega

/-- Only the outcome of the last search is still to be reported, as long as none is when a search
is accepted. -/
theorem Ordered.last_turn (ordered : Ordered marks recorded) (next : Turn)
    (settled : recorded.live.discovery.accepted < (recorded.turn next).2.live.discovery.accepted →
      recorded.live.IsSettled) :
    ∀ finishing ∈ (recorded.turn next).2.live.finishing, finishing.announced = false →
      finishing.number = (recorded.turn next).2.live.discovery.accepted := by
  have keeps := recorded.live.keeps_turn next
  intro finishing member unannounced
  rcases keeps.finishing finishing member unannounced with before | last
  · rcases keeps.job with ⟨-, grown⟩ | ⟨same, -⟩
    · rw [settled (Nat.lt_of_lt_of_eq (Nat.lt_succ_self _) grown.symm) finishing before]
        at unannounced
      cases unannounced
    · exact (ordered.last finishing before unannounced).trans same.symm
  · exact last

/-- What is told of the last search comes after all that was told before. -/
theorem flatMap_told {count teller : Nat} {row : List Telemetry.Event}
    (told : ∀ number, other.told number =
      recorded.told number ++ if number = teller then row else [])
    (last : row ≠ [] → teller = count ∧ 0 < count) :
    (List.range' 1 count).flatMap other.told =
      (List.range' 1 count).flatMap recorded.told ++ row := by
  by_cases none : row = []
  · subst none
    rw [List.append_nil]
    apply List.flatMap_congr
    intro number _
    simp [told]
  · rcases last none with ⟨rfl, positive⟩
    obtain ⟨before, rfl⟩ : ∃ before, teller = before + 1 := ⟨teller - 1, by omega⟩
    have same : (List.range' 1 before).flatMap other.told =
        (List.range' 1 before).flatMap recorded.told := by
      apply List.flatMap_congr
      intro number member
      rw [List.mem_range'_1] at member
      rw [told, if_neg (by omega), List.append_nil]
    rw [List.range'_1_concat, List.flatMap_append, List.flatMap_append, same,
      List.flatMap_singleton, List.flatMap_singleton, told, if_pos (Nat.add_comm _ _),
      List.append_assoc]

theorem Ordered.turn (ordered : Ordered marks recorded) (sound : Sound marks recorded)
    (next : Turn)
    (settled : recorded.live.discovery.accepted < (recorded.turn next).2.live.discovery.accepted →
      recorded.live.IsSettled) :
    Ordered (marks ++ (recorded.turn next).1) (recorded.turn next).2 := by
  refine ⟨ordered.last_turn next settled, ?_⟩
  have grown : (recorded.turn next).2.live.discovery.accepted =
        recorded.live.discovery.accepted + 1 ∨
      (recorded.turn next).2.live.discovery.accepted = recorded.live.discovery.accepted :=
    (recorded.live.keeps_turn next).job.imp And.right And.left
  rcases sound.exists_tells next with ⟨teller, tells⟩
  have last (some : events (recorded.turn next).1 ≠ []) :
      teller = (recorded.turn next).2.live.discovery.accepted ∧
        0 < (recorded.turn next).2.live.discovery.accepted := by
    have known := tells.known some
    rcases tells.late some with newest | ⟨same, finishing, member, open', number⟩
    · omega
    · have := ordered.last finishing member open'
      omega
  have before : (List.range' 1 (recorded.turn next).2.live.discovery.accepted).flatMap
      recorded.told = events marks := by
    rw [ordered.trace]
    rcases grown with more | same
    · rw [more, List.range'_1_concat, List.flatMap_append, List.flatMap_singleton,
        told_eq_nil (by omega), List.append_nil]
    · rw [same]
  rw [events_append, flatMap_told tells.told last, before]

/-- As long as a schedule is orderly, the trace tells of one search after the other. -/
theorem Ordered.workBy (ordered : Ordered marks recorded) (sound : Sound marks recorded)
    (turns : List Turn) (orderly : recorded.live.Orderly turns) :
    Ordered (marks ++ (recorded.workBy turns).1) (recorded.workBy turns).2 := by
  induction turns generalizing marks recorded with
  | nil => simpa [Recorded.workBy] using ordered
  | cons next rest ih =>
      have later := ih (ordered.turn sound next orderly.1) (sound.turn next) orderly.2
      simpa [Recorded.workBy, play_cons] using later

theorem sorted_fresh (registry : Registry) (identify : Nat → Session) :
    Sorted [] (fresh registry identify) where
  filter _ positive := (told_eq_nil positive).symm
  own := nofun

theorem ordered_fresh (registry : Registry) (identify : Nat → Session) :
    Ordered [] (fresh registry identify) where
  last := nofun
  trace := rfl

/-- As long as the trace tells of one search after the other, all searches but the last one have
ended. -/
theorem Ordered.announced (ordered : Ordered marks recorded) (sound : Sound marks recorded)
    (positive : 0 < number) (earlier : number < recorded.live.discovery.accepted) :
    number ∈ recorded.announced.map Prod.fst := by
  rcases sound with ⟨agrees, settled, standing, stands⟩
  have taken : number ≤ recorded.live.taken := by
    cases stands.engaged with
    | idle | standing | answered => omega
  have outcome : number ∈ recorded.outcomes.map Prod.fst := by
    rw [agrees.numbers.mem_iff, List.mem_range'_1]
    omega
  rw [(recorded.outcomes_perm.map Prod.fst).mem_iff, List.map_append] at outcome
  rcases List.mem_append.mp outcome with reported | still
  · exact reported
  · rw [List.map_map] at still
    rcases List.mem_map.mp still with ⟨finishing, among, rfl⟩
    rcases List.mem_filter.mp among with ⟨member, open'⟩
    have := ordered.last finishing member (by simpa using open')
    simp only [Function.comp_apply, Finishing.entry] at earlier
    omega

/-- As long as the trace tells of one search after the other, it is part of their records. -/
theorem Ordered.trace_prefix (ordered : Ordered marks recorded) (sound : Sound marks recorded)
    {record : Nat → Record}
    (recounts : ∀ number, 0 < number → number ≤ recorded.live.discovery.accepted →
      Recounts marks recorded number (recorded.told number) (record number)) :
    events marks <+: (List.range' 1 recorded.live.discovery.accepted).flatMap fun number =>
      (record number).events := by
  rw [ordered.trace]
  cases count : recorded.live.discovery.accepted with
  | zero => exact List.nil_prefix
  | succ before =>
      have ended : (List.range' 1 before).flatMap recorded.told =
          (List.range' 1 before).flatMap fun number => (record number).events := by
        apply List.flatMap_congr
        intro number member
        rw [List.mem_range'_1] at member
        exact (recounts number (by omega) (by omega)).whole
          (ordered.announced sound (by omega) (by omega))
      rw [List.range'_1_concat, List.flatMap_append, List.flatMap_append, ended,
        List.flatMap_singleton, List.flatMap_singleton]
      exact (List.prefix_append_right_inj _).mpr (recounts _ (by omega) (by omega)).part

/-- By whatever schedule a discovery works, its searches have records.  If the schedule is orderly,
the trace is these records one after another, as far as they have come. -/
theorem exists_records_workBy {registry : Registry} (reports : registry.Reports)
    (identify : Nat → Session) (turns : List Turn) :
    let work := (fresh registry identify).workBy turns
    ∃ record : Nat → Record,
      (∀ number, 0 < number → number ≤ work.2.live.discovery.accepted →
        Recounts work.1 work.2 number (work.2.told number) (record number)) ∧
      ((fresh registry identify).live.Orderly turns →
        events work.1 <+: (List.range' 1 work.2.live.discovery.accepted).flatMap fun number =>
          (record number).events) := by
  intro work
  have fresh_sound := sound_fresh registry identify
  have sound : Sound work.1 work.2 := fresh_sound.workBy turns
  rw [← show work.2.live.discovery.registry = registry from (fixed_workBy turns _).1] at reports
  rcases sound.exists_records reports with ⟨record, recounts⟩
  refine ⟨record, recounts, fun orderly => ?_⟩
  have ordered : Ordered work.1 work.2 :=
    (ordered_fresh registry identify).workBy fresh_sound turns orderly
  exact ordered.trace_prefix sound recounts

/-! ## The account -/

/-- A search that is declined, or that has no callback, reports nothing. -/
theorem ask_declined {live : Live} {options : Options} {callback : Option Callback}
    (declined : callback = none ∨ live.discovery.verdict options = .busy ∨
      live.discovery.verdict options = .missing) :
    events (live.ask options callback).1 = [] ∧
      (live.ask options callback).2.discovery.request? = live.discovery.request? := by
  cases callback with
  | none => exact ⟨rfl, rfl⟩
  | some callback =>
      unfold Live.ask
      rcases declined with none | busy | missing
      · cases none
      · rw [searchWith_of_busy busy]
        exact ⟨rfl, rfl⟩
      · rw [searchWith_of_missing missing]
        exact ⟨rfl, rfl⟩

/-- The account of the telemetry of a discovery, with the records of the searches that were
accepted. -/
structure Trace (marks : List Mark) (recorded : Recorded) (record : Nat → Record) : Prop where
  /-- The searches are numbered in the order in which they were accepted. -/
  numbers : (asks marks).filterMap Ask.number? =
    List.range' 1 recorded.live.discovery.accepted
  /-- The events with the request id of a search are those of its record. -/
  recounts : ∀ number, 0 < number → number ≤ recorded.live.discovery.accepted →
    Recounts marks recorded number
      ((events marks).filter fun event => event.request = (record number).session.request)
      (record number)
  /-- Every event is one of a search that was accepted. -/
  own : ∀ event ∈ events marks, ∃ number, 0 < number ∧
    number ≤ recorded.live.discovery.accepted ∧ event.request = (record number).session.request
  /-- Every outcome that has been posted is called, or waits to be. -/
  called : (recorded.posted.filterMap fun entry => entry.2.call?).Subperm (recorded.calls marks)
  /-- No two searches share a request id. -/
  apart : ∀ first second, 0 < first → first ≤ recorded.live.discovery.accepted →
    0 < second → second ≤ recorded.live.discovery.accepted →
      (record first).session.request = (record second).session.request → first = second
  /-- The request id of a discovery is that of the search that was accepted last. -/
  request : recorded.live.discovery.request? =
    if recorded.live.discovery.accepted = 0 then none
    else some (record recorded.live.discovery.accepted).session.request
  /-- A search without a callback, one that finds the slot taken, and one for which no method is
  made report nothing and leave the request id as it is. -/
  declined : ∀ options callback, callback = none ∨
      recorded.live.discovery.verdict options = .busy ∨
        recorded.live.discovery.verdict options = .missing →
    events (recorded.live.ask options callback).1 = [] ∧
      (recorded.live.ask options callback).2.discovery.request? =
        recorded.live.discovery.request?
  /-- Where no search is in flight, stopping reports nothing and changes nothing. -/
  idle : recorded.live.discovery.isOver = true →
    recorded.turn (.job .request) = ([], recorded)

/-- By whatever schedule a discovery works whose methods report on their searches, and whose
searches have request ids of their own, its telemetry comes to its account.  If the schedule is
orderly, the trace is the records of the searches one after another, as far as they have come. -/
theorem trace_account (registry : Registry) (identify : Nat → Session)
    (reports : registry.Reports)
    (distinct : ∀ first second, (identify first).request = (identify second).request →
      first = second)
    (turns : List Turn) :
    let work := (fresh registry identify).workBy turns
    ∃ record, Trace work.1 work.2 record ∧
      ((fresh registry identify).live.Orderly turns →
        events work.1 <+: (List.range' 1 work.2.live.discovery.accepted).flatMap fun number =>
          (record number).events) := by
  intro work
  have sound : Sound work.1 work.2 := (sound_fresh registry identify).workBy turns
  have sorted : Sorted work.1 work.2 :=
    (sorted_fresh registry identify).workBy (sound_fresh registry identify) reports distinct turns
  have fixed : work.2.live.discovery.registry = registry ∧
      work.2.live.discovery.identify = identify := fixed_workBy turns _
  rcases exists_records_workBy reports identify turns with ⟨record, recounts, inOrder⟩
  rw [← fixed.2] at distinct
  have session (number : Nat) (positive : 0 < number)
      (below : number ≤ work.2.live.discovery.accepted) :
      (record number).session = work.2.live.discovery.identify (number - 1) :=
    (recounts number positive below).session
  refine ⟨record, ?_, inOrder⟩
  rcases sound with ⟨agrees, settled, standing, stands⟩
  constructor
  · exact stands.numbers
  · intro number positive below
    rw [session number positive below, sorted.filter number positive]
    exact recounts number positive below
  · intro event member
    rcases sorted.own event member with ⟨number, positive, below, request⟩
    exact ⟨number, positive, below, by rw [request, session number positive below]⟩
  · exact agrees.posted
  · intro first second positive below positive' below' same
    rw [session first positive below, session second positive' below'] at same
    have := distinct _ _ same
    omega
  · rw [request?, agrees.session]
    split
    · rfl
    · rename_i some
      rw [session _ (Nat.pos_of_ne_zero some) (Nat.le_refl _)]
      rfl
  · intro options callback
    exact ask_declined
  · exact Sound.idle ⟨agrees, settled, standing, stands⟩

/-- A registry with one method, which runs a search and reports on it. -/
def sole (search : Session → Task Activity (List Bridge)) : Registry :=
  Registry.empty.register .mdns fun session => some (.reporting session .mdns (search session))

theorem reports_sole {search : Session → Task Activity (List Bridge)}
    (finds : ∀ session, Task.Always (session.FindsOnly .mdns) (fun _ => True) (search session)) :
    (sole search).Reports := by
  intro kind make session method registered made
  simp only [sole, Registry.register] at registered
  split at registered
  · cases registered
    cases made
    exact ⟨search session, rfl, finds session⟩
  · cases registered

/-- Searches that are told apart by the lengths of their request ids. -/
def counted (number : Nat) : Session where
  request := ⟨String.ofList (List.replicate number 'a')⟩

theorem counted_apart (first second : Nat)
    (same : (counted first).request = (counted second).request) : first = second := by
  simpa [counted, String.ofList_inj] using congrArg (fun id => id.text.length) same

/-- A search is asked for, and in its callback another one, which is stopped.  Both are recounted,
one after the other. -/
theorem trace_account_nested : ∃ registry identify turns,
    let work := (fresh registry identify).workBy turns
    registry.Reports ∧
      (∀ first second, (identify first).request = (identify second).request → first = second) ∧
      (fresh registry identify).live.Orderly turns ∧
      events work.1 =
        [.discoveryStarted ⟨""⟩, .methodStarted ⟨""⟩ .mdns,
          .bridgeDiscovered ⟨""⟩ .mdns ⟨0, 0⟩ "10.0.0.2",
          .methodFinished ⟨""⟩ .mdns ⟨0, 0⟩ .completed,
          .discoveryFinished ⟨""⟩ ⟨0, 0⟩ .completed,
          .discoveryStarted ⟨"a"⟩, .methodStarted ⟨"a"⟩ .mdns,
          .bridgeDiscovered ⟨"a"⟩ .mdns ⟨0, 0⟩ "10.0.0.2",
          .methodFinished ⟨"a"⟩ .mdns ⟨0, 0⟩ .cancelled,
          .discoveryFinished ⟨"a"⟩ ⟨0, 0⟩ .cancelled] ∧
      ∃ record, Trace work.1 work.2 record ∧
        ((fresh registry identify).live.Orderly turns →
          events work.1 <+: (List.range' 1 work.2.live.discovery.accepted).flatMap fun number =>
            (record number).events) := by
  let search (session : Session) : Task Activity (List Bridge) :=
    .emit (session.bridgeDiscovered .mdns "10.0.0.2") (.done [])
  let ask : Turn := .search .default (some ⟨"first", [(.default, ⟨"second", []⟩)]⟩)
  -- The first search runs to its end, and its callback is called.
  let early : List Turn :=
    List.replicate 7 (.job (.go 0)) ++ [.job .decide, .take, .announce 0, .post 0, .call]
  -- The second one is stopped as soon as its method has begun.
  let late : List Turn :=
    List.replicate 3 (.job (.go 0)) ++ [.job .request, .job .fire] ++
      List.replicate 4 (.job (.go 0)) ++ [.job .decide, .take, .announce 0]
  have reports : (sole search).Reports := by
    apply reports_sole
    intro session
    refine .emit ?_ (.done trivial)
    rintro _ ⟨⟩
    exact ⟨_, rfl⟩
  have orderly : (fresh (sole search) counted).live.Orderly (ask :: (early ++ .nested :: late)) := by
    constructor
    · exact fun _ => nofun
    · rw [Live.orderly_append]
      refine ⟨Live.orderly_quiet (by decide), fun _ finishing member => ?_,
        Live.orderly_quiet (by decide)⟩
      have none : (Live.workBy early
          ((fresh (sole search) counted).live.turn ask).2).2.finishing.length = 0 := by
        decide +kernel
      rw [List.eq_nil_of_length_eq_zero none] at member
      cases member
  exact ⟨sole search, counted, _, reports, counted_apart, orderly, by decide +kernel,
    trace_account (sole search) counted reports counted_apart _⟩

/-- A search that is asked for in a callback may be accepted when the outcome of another one has
been taken and is still to be reported.  It starts before the other one ends, so the trace is no
part of any records one after another. -/
theorem trace_overtaken : ∃ registry identify turns,
    let work := (fresh registry identify).workBy turns
    registry.Reports ∧
      (∀ first second, (identify first).request = (identify second).request → first = second) ∧
      events work.1 =
        [.discoveryStarted ⟨""⟩, .methodStarted ⟨""⟩ .mdns,
          .methodFinished ⟨""⟩ .mdns ⟨0, 0⟩ .completed,
          .discoveryStarted ⟨"a"⟩, .discoveryFinished ⟨""⟩ ⟨0, 0⟩ .completed] ∧
      ∀ records : List Record, ¬ events work.1 <+: records.flatMap Record.events := by
  let search (_ : Session) : Task Activity (List Bridge) := .gate (.done []) (.done [])
  let ask : Turn := .search .default (some ⟨"first", []⟩)
  -- While the first search waits, another one is declined, and its callback is called.
  let early : List Turn :=
    List.replicate 3 (.job (.go 0)) ++
      [.search .default (some ⟨"declined", [(.default, ⟨"second", []⟩)]⟩), .call]
  -- While it runs, the first search goes on to its end, and its outcome is taken.
  let late : List Turn :=
    .job .release :: (List.replicate 3 (.job (.go 0)) ++ [.job .decide, .take])
  have trace : events ((fresh (sole search) counted).workBy
      (ask :: (early ++ late ++ [.nested, .announce 0]))).1 =
        [.discoveryStarted ⟨""⟩, .methodStarted ⟨""⟩ .mdns,
          .methodFinished ⟨""⟩ .mdns ⟨0, 0⟩ .completed,
          .discoveryStarted ⟨"a"⟩, .discoveryFinished ⟨""⟩ ⟨0, 0⟩ .completed] := by
    decide +kernel
  refine ⟨sole search, counted, _, reports_sole fun _ => .gate (.done trivial) (.done trivial),
    counted_apart, trace, fun records begins => ?_⟩
  rw [trace] at begins
  have outer := begins.filter Telemetry.Event.isOuter
  rw [List.filter_flatMap] at outer
  simp only [Record.filter_events] at outer
  -- Of the events of searches as a whole, the second one ends the first search.
  cases records with
  | nil => cases List.prefix_nil.mp outer
  | cons first rest =>
      rcases List.cons_prefix_cons.mp outer with ⟨-, next⟩
      rcases List.cons_prefix_cons.mp next with ⟨ends, -⟩
      cases ends

end Recorded

/-! ## Discoveries that are driven -/

/-- The events that are reported, as far as they show outside. -/
def reported (shown : List Happening) : List Telemetry.Event :=
  Activity.events (shown.filterMap Happening.activity?)

theorem reported_happenings (marks : List Mark) : reported (happenings marks) = events marks := by
  simp only [reported, happenings, events, Activity.events, List.filterMap_filterMap]
  congr 1
  funext mark
  cases mark <;> rfl

/-- What a discovery that is driven reports is the records of its searches one after another, as
far as they have come. -/
theorem Driven.reported_prefix {registry : Registry} {identify : Nat → Session}
    {shown : List Happening} {discovery : Discovery} (reports : registry.Reports)
    (driven : Driven registry identify shown discovery) :
    ∃ record : Nat → Record,
      (∀ number, 0 < number → number ≤ discovery.accepted →
        (record number).session = identify (number - 1) ∧ (record number).Regular) ∧
      reported shown <+: (List.range' 1 discovery.accepted).flatMap fun number =>
        (record number).events := by
  rcases driven.unfolds with ⟨taken, turns, marks, played, orderly, rfl⟩
  let work := (Recorded.fresh registry identify).workBy turns
  have worked : (work.1, work.2.live) = (marks, { discovery, taken }) :=
    (Recorded.live_workBy turns (.fresh registry identify)).symm.trans played
  rcases Prod.mk.inj worked with ⟨same, live⟩
  have count : work.2.live.discovery.accepted = discovery.accepted :=
    congrArg (fun live => live.discovery.accepted) live
  have kept : work.2.live.discovery.identify = identify := (Recorded.fixed_workBy turns _).2
  rcases Recorded.exists_records_workBy reports identify turns with ⟨record, recounts, inOrder⟩
  apply Exists.intro record
  constructor
  · intro number positive below
    have recounts := recounts number positive (below.trans_eq count.symm)
    exact ⟨by rw [recounts.session, kept], recounts.regular⟩
  · rw [reported_happenings, ← same, ← count]
    exact inOrder orderly

end Discovery

end BridgeFinder
