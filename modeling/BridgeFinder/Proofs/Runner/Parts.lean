import BridgeFinder.Proofs.Runner.Cut
import BridgeFinder.Proofs.Task.Always
import BridgeFinder.Registry

/-!
# The parts of methods in a search

A method that reports on its search has a part in what is reported: it begins, has found some
bridges, and ends.  The parts of a run of methods follow one another, in the order of their
priorities, and only the last one may be cancelled or unfinished.
-/

namespace BridgeFinder

open BridgeFinder.Task (Always Course Mark Run signals)

/-- The events that are reported. -/
def Activity.events (activities : List Activity) : List Telemetry.Event :=
  activities.filterMap Activity.event?

@[simp]
theorem Activity.events_nil : Activity.events [] = [] :=
  rfl

@[simp]
theorem Activity.events_append (first second : List Activity) :
    Activity.events (first ++ second) = Activity.events first ++ Activity.events second :=
  List.filterMap_append

@[simp]
theorem Activity.events_report (event : Telemetry.Event) (rest : List Activity) :
    Activity.events (.report event :: rest) = event :: Activity.events rest :=
  rfl

@[simp]
theorem Activity.events_started (kind : Kind) (rest : List Activity) :
    Activity.events (.started kind :: rest) = Activity.events rest :=
  rfl

/-- The part of a method in a search. -/
structure Part where
  kind : Kind
  /-- The addresses at which it has found bridges. -/
  found : List String
  status : Telemetry.Status

/-- The events by which a part is reported. -/
def Part.events (session : Session) (part : Part) : List Telemetry.Event :=
  .methodStarted session.request part.kind ::
    (part.found.map (session.bridgeFound part.kind) ++
      [.methodFinished session.request part.kind session.elapsed part.status])

/-- All events of a part are those of its session. -/
theorem Part.request_eq {session : Session} {part : Part} {event : Telemetry.Event}
    (member : event ∈ part.events session) : event.request = session.request := by
  simp only [Part.events, List.mem_cons, List.mem_append, List.mem_map, List.not_mem_nil,
    or_false] at member
  rcases member with rfl | ⟨ip, -, rfl⟩ | rfl <;> rfl

/-- If an event is reported, it is that a bridge has been found. -/
def Session.FindsOnly (session : Session) (kind : Kind) (activity : Activity) : Prop :=
  ∀ event, activity.event? = some event → ∃ ip, event = session.bridgeFound kind ip

/-- A method reports on a search that itself reports only the bridges that it has found. -/
def Method.Reports (session : Session) (method : Method) : Prop :=
  ∃ search, method = .reporting session method.kind search ∧
    Always (session.FindsOnly method.kind) (fun _ => True) search

/-- All methods of a registry report on their searches. -/
def Registry.Reports (registry : Registry) : Prop :=
  ∀ kind make session method, registry.maker? kind = some make → make session = some method →
    method.Reports session

theorem Registry.Reports.resolve {registry : Registry} (reports : registry.Reports)
    {options : Options} {session : Session} {method : Method}
    (member : method ∈ registry.resolve options session) : method.Reports session := by
  rcases List.mem_filterMap.mp member with ⟨kind, -, made⟩
  rcases Option.bind_eq_some_iff.mp made with ⟨make, registered, made⟩
  exact reports kind make session method registered made

namespace Runner

variable {session : Session} {kind : Kind} {token : Bool} {marks : List (Mark Activity)}

/-! ## The part of one method -/

theorem exists_found {activities : List Activity}
    (finds : ∀ activity ∈ activities, session.FindsOnly kind activity) :
    ∃ found : List String, Activity.events activities = found.map (session.bridgeFound kind) := by
  induction activities with
  | nil => exact ⟨[], rfl⟩
  | cons first rest ih =>
      rcases List.forall_mem_cons.mp finds with ⟨here, later⟩
      rcases ih later with ⟨found, same⟩
      cases reported : first.event? with
      | none => exact ⟨found, by simpa [Activity.events, reported] using same⟩
      | some event =>
          rcases here event reported with ⟨ip, rfl⟩
          exact ⟨ip :: found, by simpa [Activity.events, reported] using same⟩

/-- What could be seen of a method shows its part, as far as it has come. -/
structure Shows (session : Session) (kind : Kind) (marks : List (Mark Activity)) (token : Bool)
    (task : Task Activity (Option (List Bridge))) (part : Part) : Prop where
  kind : part.kind = kind
  told : Activity.events (signals marks) <+: part.events session
  /-- The part is cancelled only if the token has been fired. -/
  cancelled : part.status = .cancelled → token = true
  /-- A method that has ended has reported all of its part. -/
  whole : ∀ output, task = .done output → Activity.events (signals marks) = part.events session

/-- A method that has not ended has reported its start and what it has found. -/
theorem Shows.going {task : Task Activity (Option (List Bridge))} {found : List String}
    (told : Activity.events (signals marks) =
      .methodStarted session.request kind :: found.map (session.bridgeFound kind))
    (going : task.output? = none) :
    Shows session kind marks token task ⟨kind, found, .completed⟩ where
  kind := rfl
  told := by
    rw [told]
    exact ⟨[.methodFinished session.request kind session.elapsed .completed], rfl⟩
  cancelled := nofun
  whole := by
    rintro output rfl
    cases going

/-- Whatever its schedule, a method that reports on a search shows its part. -/
theorem exists_shows {search : Task Activity (List Bridge)}
    {last : Run Activity (Option (List Bridge))}
    (finds : Always (session.FindsOnly kind) (fun _ => True) search)
    (course : Course ⟨token, Method.reported session kind search⟩ marks last) :
    ∃ part, Shows session kind marks last.token last.task part := by
  rcases course.emit_cases with
    ⟨after, firing, rfl⟩ | ⟨before, after, more, firing, rfl, started⟩
  · refine ⟨⟨kind, [], .completed⟩, rfl, ?_, nofun, nofun⟩
    rw [firing.signals_eq]
    exact List.nil_prefix
  have lead (rest : List (Mark Activity)) :
      Activity.events (signals (before ++ .signal (session.methodStarted kind) :: rest)) =
        .methodStarted session.request kind :: Activity.events (signals rest) := by
    simp [firing.signals_eq, Session.methodStarted]
  cases started.bind_cases with
  | inside first going =>
      rcases exists_found (finds _ _ _ first).1 with ⟨found, same⟩
      exact ⟨⟨kind, found, .completed⟩, .going (by rw [lead, same]) (Task.output?_bind _ going)⟩
  | @through seen more ended output _ first second =>
      rcases exists_found (finds _ _ _ first).1 with ⟨found, same⟩
      rcases second.check_cases with
        ⟨after, firing', rfl⟩ | ⟨before', looked, more, firing', rfl, checked⟩
      · refine ⟨⟨kind, found, .completed⟩, .going ?_ rfl⟩
        rw [lead]
        simp [same, firing'.signals_eq]
      rcases checked.emit_cases with
        ⟨after, firing'', rfl⟩ | ⟨before'', after, more, firing'', rfl, reported⟩
      · refine ⟨⟨kind, found, .completed⟩, .going ?_ rfl⟩
        rw [lead]
        simp [same, firing'.signals_eq, firing''.signals_eq]
      rcases reported.done_cases with ⟨after, firing''', rfl⟩
      have all : Activity.events (signals (before ++ .signal (session.methodStarted kind) ::
          (seen ++ (before' ++ .looked looked :: (before'' ++
            .signal (session.methodFinished kind (.ofCancelled looked)) :: more))))) =
          Part.events session ⟨kind, found, .ofCancelled looked⟩ := by
        rw [lead]
        simp [same, firing'.signals_eq, firing''.signals_eq, firing'''.signals_eq, Part.events,
          Session.methodFinished]
      refine ⟨⟨kind, found, .ofCancelled looked⟩, rfl, ?_, ?_, fun _ _ => all⟩
      · rw [all]
      · intro cancelled
        apply firing'''.token_mono
        apply firing''.token_mono
        cases looked with
        | true => rfl
        | false => cases cancelled

/-- So does the round of a method in a run. -/
theorem Round.Begun.exists_shows {round : Round} (begun : round.Begun)
    (reports : round.method.Reports session) :
    ∃ part, Shows session round.method.kind round.marks round.last.token round.last.task part := by
  rcases reports with ⟨search, reporting, finds⟩
  have conduct := congrArg Method.conduct reporting
  cases begun with
  | refused refuses => cases refuses.symm.trans conduct
  | @searched method _ before _ _ _ searches firing course =>
      obtain rfl := Conduct.searches.inj (searches.symm.trans conduct)
      rcases Runner.exists_shows finds course with ⟨part, shows⟩
      have same (rest : List (Mark Activity)) : Activity.events (signals
          (.looked false :: (before ++ .signal (.started method.kind) :: rest))) =
            Activity.events (signals rest) := by
        simp [firing.signals_eq]
      refine ⟨part, shows.kind, ?_, shows.cancelled, ?_⟩
      · rw [same]
        exact shows.told
      · rw [same]
        exact shows.whole

/-! ## The parts of a run -/

/-- What could be seen of a run shows the parts of its methods, as far as they have come. -/
structure Consists (session : Session) (marks : List (Mark Activity)) (parts : List Part) :
    Prop where
  /-- The methods follow one another in the order of their priorities. -/
  ascending : parts.Pairwise fun first second => first.kind.priority ≤ second.kind.priority
  /-- Only the last part may be cancelled, and it is only if the token has been fired. -/
  completed : ∀ part ∈ parts.dropLast, part.status = .completed
  cancelled : ∀ part ∈ parts, part.status = .cancelled → .fired ∈ marks
  told : Activity.events (signals marks) <+: parts.flatMap (Part.events session)

theorem events_flatMap (rounds : List Round) :
    Activity.events (signals (rounds.flatMap Round.marks)) =
      rounds.flatMap fun round => Activity.events (signals round.marks) := by
  induction rounds with
  | nil => rfl
  | cons first rest ih => simp [ih]

theorem status_eq_completed {part : Part} (uncancelled : part.status ≠ .cancelled) :
    part.status = .completed := by
  cases status : part.status with
  | completed => rfl
  | cancelled => exact absurd status uncancelled

/-- Rounds that follow one another show the parts of their methods. -/
theorem Sequence.exists_parts {queue : List Method} {rounds : List Round}
    (sequence : Sequence queue false marks rounds)
    (ascending : queue.Pairwise fun first second => first.kind.priority ≤ second.kind.priority)
    (reports : ∀ method ∈ queue, method.Reports session) :
    ∃ parts, Consists session marks parts ∧ ((∀ round ∈ rounds, round.IsOver) →
      Activity.events (signals marks) = parts.flatMap (Part.events session)) := by
  have each (round : Round) : ∃ part, round ∈ rounds →
      Shows session round.method.kind round.marks round.last.token round.last.task part := by
    by_cases member : round ∈ rounds
    · have queued : round.method ∈ queue :=
        sequence.inOrder.subset (List.mem_map_of_mem member)
      rcases (sequence.begun round member).exists_shows (reports _ queued) with ⟨part, shows⟩
      exact ⟨part, fun _ => shows⟩
    · exact ⟨⟨.mdns, [], .completed⟩, fun there => absurd there member⟩
  choose part shows using each
  rcases sequence.complete with ⟨tail, rfl, silent⟩
  have seen : Activity.events (signals (rounds.flatMap Round.marks ++ tail)) =
      rounds.flatMap fun round => Activity.events (signals round.marks) := by
    rw [Task.signals_append, silent, List.append_nil, events_flatMap]
  have whole {some : List Round} (among : ∀ round ∈ some, round ∈ rounds)
      (finished : ∀ round ∈ some, round.IsOver) :
      (some.flatMap fun round => Activity.events (signals round.marks)) =
        (some.map part).flatMap (Part.events session) := by
    rw [List.flatMap_map]
    apply List.flatMap_congr
    intro round member
    rcases finished round member with ⟨output, ended⟩
    exact (shows round (among round member)).whole output ended
  have struck (round : Round) (member : round ∈ rounds)
      (cancelled : (part round).status = .cancelled) : .fired ∈ round.marks :=
    (sequence.begun round member).token_iff.mp ((shows round member).cancelled cancelled)
  apply Exists.intro (rounds.map part)
  constructor
  · constructor
    · have inOrder := List.pairwise_map.mp (ascending.sublist sequence.inOrder.sublist)
      rw [List.pairwise_map]
      apply inOrder.imp_of_mem
      intro first second memFirst memSecond less
      rwa [(shows first memFirst).kind, (shows second memSecond).kind]
    · rcases List.eq_nil_or_concat' rounds with rfl | ⟨before, last, rfl⟩
      · nofun
      · rw [List.map_append, List.map_singleton, List.dropLast_concat]
        intro _ member
        rcases List.mem_map.mp member with ⟨round, earlier, rfl⟩
        have there : round ∈ before ++ [last] := List.mem_append_left _ earlier
        apply status_eq_completed
        intro cancelled
        have fired := struck round there cancelled
        exact (sequence.uncancelled before last [] rfl).2
          (List.mem_flatMap.mpr ⟨round, earlier, fired⟩)
    · intro _ member cancelled
      rcases List.mem_map.mp member with ⟨round, there, rfl⟩
      have fired := struck round there cancelled
      exact List.mem_append_left _ (List.mem_flatMap.mpr ⟨round, there, fired⟩)
    · rw [seen]
      rcases List.eq_nil_or_concat' rounds with rfl | ⟨before, last, rfl⟩
      · exact List.nil_prefix
      · have ended (round : Round) (member : round ∈ before) : round.IsOver := by
          apply sequence.oneByOne
          rwa [List.dropLast_concat]
        simp only [List.flatMap_append, List.map_append, List.flatMap_singleton,
          List.map_singleton, whole (fun _ => List.mem_append_left _) ended]
        exact (List.prefix_append_right_inj _).mpr (shows last (by simp)).told
  · intro finished
    rw [seen]
    exact whole (fun _ => id) finished

/-- A run of methods that report shows their parts, and all of them when it has ended. -/
theorem exists_parts {methods : List Method} {last : Run Activity (List Bridge × Runner)}
    (reports : ∀ method ∈ methods, method.Reports session)
    (course : Course ⟨false, (ofMethods methods).execute⟩ marks last) :
    ∃ parts, Consists session marks parts ∧ ∀ output, last.task = .done output →
      Activity.events (signals marks) = parts.flatMap (Part.events session) := by
  have sorts := sorts_queue methods
  rcases exists_sequence course with ⟨rounds, sequence, merged⟩
  rcases sequence.exists_parts sorts.ascending fun method queued =>
    reports method (sorts.perm.mem_iff.mp queued) with ⟨parts, consists, whole⟩
  refine ⟨parts, consists, ?_⟩
  rintro ⟨bridges, left⟩ ended
  exact whole (merged bridges left ended).closed

end Runner

end BridgeFinder
