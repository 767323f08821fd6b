import BridgeFinder.Proofs.Runner.Queue
import BridgeFinder.Proofs.Runner.Results
import BridgeFinder.Proofs.Task.Depth
import BridgeFinder.Proofs.Task.Token
import BridgeFinder.Proofs.Text.Bytes

/-!
# The rounds of a runner

A runner goes through its queue in rounds.  In its round a method is started, if the
token has not been fired by then, and its search takes its course; only when the search
has ended does the next round begin.  What a runner delivers in the end is determined by
its rounds alone.
-/

namespace BridgeFinder.Runner

open BridgeFinder.Task (Course Firing Mark Run)

/-- The round of one method: what could be seen of it, and what is left of the search. -/
structure Round where
  method : Method
  marks : List (Mark Activity)
  last : Run Activity (Option (List Bridge))

namespace Round

/-- The bridges that a round has delivered.  There are none as long as its search goes
on, and none if the search ends without delivering. -/
def delivered (round : Round) : List Bridge :=
  (round.last.task.output?.bind id).getD []

/-- The search of a round has ended. -/
def IsOver (round : Round) : Prop :=
  ∃ output, round.last.task = .done output

/-- A round as it may be.  It begins with a look at a token that has not been fired.
A method that refuses is passed over; any other is started, and then nothing can be
seen but a course of its own search. -/
inductive Begun : Round → Prop where
  | refused {method : Method} (refuses : method.conduct = .refuses) :
      Begun ⟨method, [.looked false], ⟨false, .done none⟩⟩
  | searched {method : Method} {search : Task Activity (Option (List Bridge))}
      {before marks : List (Mark Activity)} {token : Bool}
      {last : Run Activity (Option (List Bridge))}
      (searches : method.conduct = .searches search) (firing : Firing false before token)
      (course : Course ⟨token, search⟩ marks last) :
      Begun ⟨method, .looked false :: (before ++ .signal (.started method.kind) :: marks), last⟩

end Round

/-- All that happened in a run was a sequence of rounds. -/
structure Sequence (queue : List Method) (token : Bool) (marks : List (Mark Activity))
    (rounds : List Round) : Prop where
  /-- The methods take their turns in the order of the queue. -/
  inOrder : rounds.map Round.method <+: queue
  /-- In its round a method is started and then runs its own search. -/
  begun : ∀ round ∈ rounds, round.Begun
  /-- A round begins only after all rounds before it have ended. -/
  oneByOne : ∀ round ∈ rounds.dropLast, round.IsOver
  /-- No round begins after the token has been fired. -/
  uncancelled : ∀ before round after, rounds = before ++ round :: after →
    token = false ∧ .fired ∉ before.flatMap Round.marks
  /-- All that can be seen belongs to the rounds, up to looks at the token and its firing. -/
  complete : ∃ tail, marks = rounds.flatMap Round.marks ++ tail ∧ Task.signals tail = []

/-- What a run delivers in the end is what its rounds have delivered. -/
structure Merges (queue : List Method) (cancelled : Bool) (rounds : List Round)
    (bridges : List Bridge) (left : Runner) : Prop where
  /-- All rounds have ended. -/
  closed : ∀ round ∈ rounds, round.IsOver
  /-- Unless the token has been fired, every method has had its round. -/
  exhaustive : cancelled = false → rounds.map Round.method = queue
  /-- No method is left, and no bridge. -/
  emptied : left.queue = [] ∧ left.results = []
  /-- The bridges ascend strictly in the byte order of their addresses. -/
  ascending : bridges.Pairwise fun first second =>
    Text.encode first.ip.toList < Text.encode second.ip.toList
  /-- For every address that was delivered there is one bridge, the last one delivered. -/
  last : ∀ ip, bridges.filter (·.ip = ip) = (last? ip (rounds.flatMap Round.delivered)).toList

/-! ## One method after another -/

/-- How a run of a queue stands when no round begins any more, or the next one has not
ended. -/
inductive Standing (results : List Bridge) (token : Bool) :
    List Method → List (Mark Activity) → Run Activity Runner → Prop where
  | between {queue : List Method} {marks : List (Mark Activity)} {after : Bool}
      (firing : Firing token marks after) :
      Standing results token queue marks ⟨after, runQueue queue results⟩
  | stopped {method : Method} {queue : List Method} {marks : List (Mark Activity)}
      (firing : Firing token marks true) :
      Standing results token (method :: queue) (marks ++ [.looked true])
        ⟨true, .done ⟨queue, results⟩⟩
  | starting {method : Method} {queue : List Method} {marks : List (Mark Activity)}
      {after : Bool} {next : Task Activity Runner} (firing : Firing false marks after) :
      Standing results token (method :: queue) (.looked false :: marks)
        ⟨after, .emit (.started method.kind) next⟩
  | searching {round : Round} {queue : List Method} (begun : round.Begun)
      (going : round.last.task.output? = none) :
      Standing results token (round.method :: queue) round.marks
        ⟨round.last.token, round.last.task.bind fun delivered =>
          runQueue queue (merge results (delivered.getD []))⟩

/-- The rounds of a run that have ended, with what is left of the queue and of what could
be seen. -/
structure Past (queue : List Method) (marks : List (Mark Activity)) (rounds : List Round)
    (rest : List Method) (tail : List (Mark Activity)) : Prop where
  inOrder : queue = rounds.map Round.method ++ rest
  seen : marks = rounds.flatMap Round.marks ++ tail
  begun : ∀ round ∈ rounds, round.Begun
  closed : ∀ round ∈ rounds, round.IsOver

namespace Past

variable {queue rest : List Method} {marks tail : List (Mark Activity)} {rounds : List Round}

theorem none (queue : List Method) (marks : List (Mark Activity)) :
    Past queue marks [] queue marks := by
  constructor
  · rfl
  · rfl
  · nofun
  · nofun

/-- A round comes before those that follow it. -/
theorem cons {round : Round} (begun : round.Begun) (ended : round.IsOver)
    (past : Past queue marks rounds rest tail) :
    Past (round.method :: queue) (round.marks ++ marks) (round :: rounds) rest tail := by
  constructor
  · rw [past.inOrder, List.map_cons, List.cons_append]
  · rw [past.seen, List.flatMap_cons, List.append_assoc]
  · exact List.forall_mem_cons.mpr ⟨begun, past.begun⟩
  · exact List.forall_mem_cons.mpr ⟨ended, past.closed⟩

end Past

/-- A run of a queue has had some rounds and stands after them. -/
theorem exists_standing {queue : List Method} {results : List Bridge} {token : Bool}
    {marks : List (Mark Activity)} {last : Run Activity Runner}
    (course : Course ⟨token, runQueue queue results⟩ marks last) :
    ∃ (rounds : List Round) (rest : List Method) (tail : List (Mark Activity)) (middle : Bool),
      Past queue marks rounds rest tail ∧
      Standing (merge results (rounds.flatMap Round.delivered)) middle rest tail last := by
  induction queue generalizing results token marks with
  | nil =>
      rcases course.done_cases with ⟨after, firing, rfl⟩
      exact ⟨[], [], marks, token, .none _ _, .between firing⟩
  | cons method queue ih =>
      rcases course.check_cases with
        ⟨after, firing, rfl⟩ | ⟨before, found, more, firing, rfl, looked⟩
      · exact ⟨[], method :: queue, marks, token, .none _ _, .between firing⟩
      cases found with
      | true =>
          rcases looked.done_cases with ⟨after, still, rfl⟩
          cases still
          exact ⟨[], method :: queue, _, token, .none _ _, .stopped firing⟩
      | false =>
          cases firing
          simp only [Bool.false_eq_true, if_false] at looked
          cases conduct : method.conduct with
          | refuses =>
              simp only [conduct] at looked
              rcases ih looked with ⟨rounds, rest, tail, middle, past, standing⟩
              have round := past.cons (.refused conduct) ⟨none, rfl⟩
              exact ⟨_, rest, tail, middle, round, standing⟩
          | searches search =>
              simp only [conduct] at looked
              rcases looked.emit_cases with
                ⟨after, firing, rfl⟩ | ⟨before, after, marks, firing, rfl, started⟩
              · exact ⟨[], method :: queue, _, false, .none _ _, .starting firing⟩
              cases started.bind_cases with
              | inside first going =>
                  have begun := Round.Begun.searched conduct firing first
                  exact ⟨[], method :: queue, _, false, .none _ _, .searching begun going⟩
              | @through seen more ended output _ first second =>
                  have begun := Round.Begun.searched conduct firing first
                  rcases ih second with ⟨rounds, rest, tail, middle, past, standing⟩
                  have round := past.cons begun ⟨output, rfl⟩
                  rw [← merge_append] at standing
                  have all : .looked false ::
                      (before ++ .signal (.started method.kind) :: (seen ++ more)) =
                      .looked false :: (before ++ .signal (.started method.kind) :: seen) ++ more := by
                    simp
                  rw [List.nil_append, all]
                  exact ⟨_, rest, tail, middle, round, standing⟩

/-! ## What a run comes to -/

section

variable {queue : List Method} {token : Bool} {marks : List (Mark Activity)}
  {rounds : List Round} {last : Run Activity Runner}

/-- Rounds that follow one another begin with looks at the token, so the token has not
been fired before any of them. -/
theorem Sequence.of_course (course : Course ⟨token, runQueue queue []⟩ marks last)
    (inOrder : rounds.map Round.method <+: queue) (begun : ∀ round ∈ rounds, round.Begun)
    (oneByOne : ∀ round ∈ rounds.dropLast, round.IsOver)
    (complete : ∃ tail, marks = rounds.flatMap Round.marks ++ tail ∧ Task.signals tail = []) :
    Sequence queue token marks rounds := by
  refine ⟨inOrder, begun, oneByOne, ?_, complete⟩
  rintro before round after rfl
  rcases complete with ⟨tail, rfl, -⟩
  obtain ⟨more, looked⟩ : ∃ more, round.marks = .looked false :: more := by
    cases begun round (by simp) with
    | refused => exact ⟨_, rfl⟩
    | searched => exact ⟨_, rfl⟩
  have seen := course
  simp only [List.flatMap_append, List.flatMap_cons, looked, List.append_assoc,
    List.cons_append] at seen
  simpa using seen.looked_iff

/-- The rounds that have ended are all rounds, if nothing but the token can be seen after
them. -/
theorem Past.sequence {rest : List Method} {tail : List (Mark Activity)}
    (past : Past queue marks rounds rest tail)
    (course : Course ⟨token, runQueue queue []⟩ marks last) (silent : Task.signals tail = []) :
    Sequence queue token marks rounds := by
  apply Sequence.of_course course _ past.begun
  · intro round member
    exact past.closed round (List.dropLast_subset _ member)
  · exact ⟨tail, past.seen, silent⟩
  · exact ⟨rest, past.inOrder.symm⟩

/-- Otherwise one more round has begun. -/
theorem Past.sequence_concat {rest : List Method} {round : Round}
    (past : Past queue marks rounds (round.method :: rest) round.marks)
    (course : Course ⟨token, runQueue queue []⟩ marks last) (begun : round.Begun) :
    Sequence queue token marks (rounds ++ [round]) := by
  apply Sequence.of_course course
  · rw [past.inOrder, List.map_append]
    exact ⟨rest, by simp⟩
  · intro other member
    rcases List.mem_append.mp member with earlier | same
    · exact past.begun other earlier
    · rw [List.mem_singleton.mp same]
      exact begun
  · rw [List.dropLast_concat]
    exact past.closed
  · exact ⟨[], by simpa using past.seen, rfl⟩

/-- A run of a queue that makes no move has ended or waits inside a round. -/
def Waits (rounds : List Round) {α : Type} (last : Run Activity α) : Prop :=
  last.Rests → (∃ output, last.task = .done output) ∨
    ∃ round, rounds.getLast? = some round ∧ ¬ round.IsOver ∧
      round.last.token = last.token ∧ round.last.Rests

/-- A run of a queue that has ended has gone through its rounds and merged what they
have delivered. -/
structure Ends (queue : List Method) (rounds : List Round) (after : Bool) (runner : Runner) :
    Prop where
  closed : ∀ round ∈ rounds, round.IsOver
  exhaustive : after = false → rounds.map Round.method = queue
  merged : runner.results = merge [] (rounds.flatMap Round.delivered)

/-- A run of a queue is a sequence of rounds. -/
theorem exists_rounds (course : Course ⟨token, runQueue queue []⟩ marks last) :
    ∃ rounds, Sequence queue token marks rounds ∧ Waits rounds last ∧
      ∀ runner, last.task = .done runner → Ends queue rounds last.token runner := by
  rcases exists_standing course with ⟨rounds, rest, tail, middle, past, standing⟩
  cases standing with
  | between firing =>
      apply Exists.intro rounds
      apply And.intro (past.sequence course firing.signals_eq)
      cases rest with
      | nil =>
          constructor
          · intro _
            exact .inl ⟨_, rfl⟩
          · rintro runner ⟨⟩
            exact ⟨past.closed, fun _ => by simpa using past.inOrder.symm, rfl⟩
      | cons method rest =>
          constructor
          · intro rests
            cases rests 0
          · rintro runner ⟨⟩
  | stopped firing =>
      apply Exists.intro rounds
      apply And.intro (past.sequence course (by simp [firing.signals_eq]))
      constructor
      · intro _
        exact .inl ⟨_, rfl⟩
      · rintro runner ⟨⟩
        exact ⟨past.closed, nofun, rfl⟩
  | starting firing =>
      apply Exists.intro rounds
      apply And.intro (past.sequence course (by simp [firing.signals_eq]))
      constructor
      · intro rests
        cases rests 0
      · rintro runner ⟨⟩
  | @searching round rest begun going =>
      apply Exists.intro (rounds ++ [round])
      apply And.intro (past.sequence_concat course begun)
      constructor
      · intro rests
        right
        refine ⟨round, by simp, ?_, rfl, rests.of_bind going⟩
        rintro ⟨output, ended⟩
        simp [ended] at going
      · intro runner ended
        have none := congrArg Task.output? ended
        rw [Task.output?_bind _ going] at none
        cases none

end

/-- Handing over the bridges takes no move. -/
theorem Waits.map {rounds : List Round} {after : Bool} {task : Task Activity Runner}
    (waits : Waits rounds (⟨after, task⟩ : Run Activity Runner)) :
    Waits rounds (⟨after, task.map handOver⟩ : Run Activity (List Bridge × Runner)) := by
  intro rests
  cases going : task.output? with
  | none =>
      rcases waits (rests.of_bind going) with ⟨output, rfl⟩ | waiting
      · cases going
      · exact .inr waiting
  | some runner =>
      cases task with
      | done output => exact .inl ⟨handOver output, rfl⟩
      | emit | check | pick | gate | hold | stall => cases going

/-- What is handed over in the end is what the rounds have delivered. -/
theorem Ends.merges {queue : List Method} {rounds : List Round} {after : Bool} {runner : Runner}
    (ends : Ends queue rounds after runner) :
    Merges queue after rounds (handOver runner).1 (handOver runner).2 where
  closed := ends.closed
  exhaustive := ends.exhaustive
  emptied := ⟨rfl, rfl⟩
  ascending := by
    have sorted : Ascending runner.results := ends.merged ▸ ascending_merge .nil _
    exact sorted.imp fun less => Text.encode_lt_encode less
  last ip := by
    rw [handOver, ends.merged]
    exact filter_merge _ ip

/-- A run of methods, by whatever schedule, is a sequence of rounds in the order of a
stable sort by priority.  By itself it comes to rest, and it rests only when it has ended
or the search of its last round rests; in the end it delivers what its rounds have
delivered. -/
theorem execute_rounds (methods : List Method) (turns : List Task.Turn) (token : Bool) :
    let queue := (ofMethods methods).queue
    let run := (ofMethods methods).execute.runBy turns token
    Sorts methods queue ∧
    (∃ more, (∀ next ∈ more, ∃ way, next = .go way) ∧
      ((ofMethods methods).execute.runBy (turns ++ more) token).2.Rests) ∧
    ∃ rounds, Sequence queue token run.1 rounds ∧ Waits rounds run.2 ∧
      ∀ bridges left, run.2.task = .done (bridges, left) →
        Merges queue run.2.token rounds bridges left := by
  apply And.intro (sorts_queue methods)
  apply And.intro (Task.exists_rests turns token _)
  have course := Task.course_runBy turns token (ofMethods methods).execute
  rcases course.map_cases with ⟨after, rest, inner, last⟩
  rcases exists_rounds inner with ⟨rounds, sequence, waits, ends⟩
  apply Exists.intro rounds
  apply And.intro sequence
  constructor
  · intro rests
    rw [last] at rests ⊢
    exact waits.map rests
  · intro bridges left ended
    rw [last] at ended ⊢
    have output := congrArg Task.output? ended
    rw [Task.output?_map] at output
    rcases Option.map_eq_some_iff.mp output with ⟨runner, found, handed⟩
    cases rest with
    | done runner' =>
        cases found
        have merges := (ends runner rfl).merges
        rwa [handed] at merges
    | emit | check | pick | gate | hold | stall => cases found

end BridgeFinder.Runner
