import BridgeFinder.Proofs.Dispatcher.BreadthFirst
import BridgeFinder.Proofs.Dispatcher.Stands
import Mathlib.Algebra.GroupWithZero.Nat

/-!
# The account of a dispatcher

However posts and the turns of the delivery thread come between one another, every piece of work
that was posted runs once, in the order of the posts, on the delivery thread and not before all that
started earlier has run.  A thread that drops the dispatcher goes on when everything has run.  A
piece of work that another thread has posted runs elsewhere than on the thread that posted it; one
that was posted by a piece of work runs on the same thread, after that piece of work.
-/

namespace BridgeFinder.Dispatcher

variable {α : Type}

/-- What is so when a piece of work starts. -/
structure Starts (before : List (Mark α)) (entry : Entry α) (thread : Thread) : Prop where
  /-- It was posted, and it has not been started before. -/
  posted : entry ∈ posts before
  fresh : entry ∉ starts before
  /-- Everything that was started before has run. -/
  alone : ends before = starts before
  /-- It runs on the delivery thread. -/
  dispatched : isWorker thread = true
  /-- This is not the thread that posted it, if that is another one. -/
  elsewhere : entry.poster = .outside → thread ≠ entry.poster.thread
  /-- If a piece of work posted it, the post has returned and that piece of work has run. -/
  later : ∀ number, entry.poster = .inside number →
    .answered entry ∈ before ∧ ∃ parent ∈ ends before, parent.number = number

/-- The account of a dispatcher, by what can be seen of it and by what has become of it. -/
structure Account (marks : List (Mark α)) (live : Live α) : Prop where
  /-- Work is started in the order in which it was posted. -/
  started : starts marks <+: posts marks
  /-- It comes to its end in the same order. -/
  ended : ends marks <+: starts marks
  /-- No two posts are the same, so that no piece of work is started twice. -/
  nodup : (posts marks).Nodup
  starts : ∀ before entry thread after, marks = before ++ .started entry thread :: after →
    Starts before entry thread
  /-- When another thread that has dropped the dispatcher goes on, everything that was posted has
  run, and nothing is posted any more. -/
  dropped : ∀ before after, marks = before ++ .dropped .caller :: after →
    ends before = posts before ∧ posts marks = posts before
  /-- At rest everything that was posted has run, and no thread waits. -/
  rest : live.Rests → ends marks = posts marks ∧ live.isJoining = false
  /-- By itself the dispatcher comes to rest. -/
  settles : ∃ turns, (∀ next ∈ turns, next.isOwn = true) ∧ (live.workBy turns).2.Rests

/-- What runs when the given work is all that other threads post. -/
structure Breadth (roots : List (Work α)) (marks : List (Mark α)) (live : Live α) : Prop where
  /-- Work is started level by level. -/
  order : (starts marks).map Entry.label <+: Work.breadthFirst roots
  /-- At rest all of it has run, as it does when the dispatcher is drained, unless a post was
  refused. -/
  rest : live.Rests → (∀ mark ∈ marks, mark.isRefused = false) →
    (ends marks).map Entry.label = Work.breadthFirst roots ∧
      (drain { waiting := roots }).1 = (ends marks).map fun entry => ⟨entry.label, .worker⟩

/-! ## Rest -/

/-- How many turns are left to a piece of work that waits.  Each of the pieces that it posts takes
four: it is posted, the post returns, it starts and comes to its end. -/
def Pending.weight (pending : Pending α) : Nat :=
  4 * Work.sizes pending.posts + 2

/-- How many turns are left to a piece of work that runs. -/
def Running.weight (running : Running α) : Nat :=
  4 * Work.sizes running.posts + running.posting.toList.length + 1

namespace Live

/-- How many turns a dispatcher has left that need nobody from outside. -/
def weight (live : Live α) : Nat :=
  (live.dispatcher.waiting.map Pending.weight).sum + (live.running.map Running.weight).getD 0 +
    live.isJoining.toNat + (!live.isOver).toNat

/-- A turn that needs nobody from outside takes one of those that are left. -/
theorem Step.weight_lt {live last : Live α} {next : Turn α} {marks : List (Mark α)}
    (step : Step live next marks last) (own : next.isOwn = true) :
    marks = [] ∧ last = live ∨ last.weight < live.weight := by
  cases step with
  | stay => exact .inl ⟨rfl, rfl⟩
  | post | refuse | dropInside | dropOutside => cases own
  | nested runs =>
      right
      simp [weight, Running.weight, Pending.weight, accept, runs]
      omega
  | refuseNested runs | answer runs | finish runs =>
      right
      simp [weight, Running.weight, runs]
  | start idle waits =>
      right
      simp [weight, Running.weight, Pending.weight, idle, waits]
      omega
  | leave =>
      rcases live with ⟨dispatcher, taken, running, isJoining, isOver⟩
      cases isOver with
      | true => exact .inl ⟨rfl, rfl⟩
      | false =>
          right
          simp [weight]
  | join joining =>
      right
      simp [weight, joining]

/-- By itself, a dispatcher comes to rest. -/
theorem exists_rests (live : Live α) :
    ∃ turns, (∀ next ∈ turns, next.isOwn = true) ∧ (live.workBy turns).2.Rests := by
  apply exists_play_rests (measure weight).wf _ live
  intro next own live
  exact ((live.step_turn next).weight_lt own).imp_left fun ⟨marks, last⟩ => Prod.ext marks last

/-- At rest nothing runs. -/
theorem Rests.running_eq {live : Live α} (rests : live.Rests) : live.running = none := by
  have nested := rests .nested rfl
  have answer := rests .answer rfl
  have finish := rests .finish rfl
  rcases running : live.running with _ | ⟨entry, posts, _ | posting⟩
  · rfl
  · cases posts with
    | nil => simp [turn, Live.finish, running] at finish
    | cons work rest => simp [turn, Live.nested, running] at nested
  · simp [turn, Live.answer, running] at answer

/-- At rest nothing waits. -/
theorem Rests.waiting_eq {live : Live α} (rests : live.Rests) : live.dispatcher.waiting = [] := by
  have start := rests .start rfl
  cases waiting : live.dispatcher.waiting with
  | nil => rfl
  | cons pending rest => simp [turn, Live.start, rests.running_eq, next?, waiting] at start

/-- At rest no thread waits for the delivery thread. -/
theorem Rests.isJoining_eq {live : Live α} (rests : live.Rests)
    (joining : live.isJoining = true → live.dispatcher.isOpen = false) :
    live.isJoining = false := by
  have leave := congrArg (·.2.isOver) (rests .leave rfl)
  have join := rests .join rfl
  cases waits : live.isJoining with
  | false => rfl
  | true =>
      have isOver : live.isOver = true := by
        simpa [turn, Live.leave, rests.running_eq, next?, rests.waiting_eq, joining waits] using
          leave.symm
      simp [turn, Live.join, waits, isOver] at join

/-! ## Order -/

/-- What has still to run, as far as it has been posted or will be posted by the piece of work that
runs. -/
def toCome (live : Live α) : List (Work α) :=
  live.dispatcher.waiting.map (fun pending => .item pending.entry.label pending.posts) ++
    (live.running.map Running.posts).getD []

/-- At rest nothing has still to run. -/
theorem Rests.toCome_eq {live : Live α} (rests : live.Rests) : live.toCome = [] := by
  simp [toCome, rests.running_eq, rests.waiting_eq]

/-- If nothing comes from outside and nothing is refused, the order in which all will run stays the
same, and what starts is the first. -/
theorem Step.breadthFirst_toCome {live last : Live α} {next : Turn α} {marks : List (Mark α)}
    (step : Step live next marks last) (quiet : next.isPost = false)
    (taken : ∀ mark ∈ marks, mark.isRefused = false) :
    Work.breadthFirst live.toCome =
      (starts marks).map Entry.label ++ Work.breadthFirst last.toCome := by
  cases step with
  | post | refuse => cases quiet
  | nested runs =>
      simp [toCome, accept, runs, Mark.started?]
  | refuseNested runs => simp [Mark.isRefused] at taken
  | answer runs | finish runs => simp [toCome, runs, Mark.started?]
  | start idle waits =>
      simp [toCome, idle, waits, Mark.started?, Work.breadthFirst_cons, Work.label, Work.posts]
  | stay | dropInside | dropOutside | leave | join => simp [toCome, Mark.started?, shut]

end Live

/-! ## The account -/

section

variable {marks : List (Mark α)} {live : Live α}

/-- When nothing runs, everything that was started has run. -/
theorem Stands.starts_eq_ends (stands : Stands marks live) (idle : live.running = none) :
    Dispatcher.starts marks = ends marks := by
  simp [stands.serial, idle]

/-- When nothing runs and nothing waits, everything that was posted has run. -/
theorem Stands.ends_eq_posts (stands : Stands marks live) (idle : live.running = none)
    (empty : live.dispatcher.waiting = []) : ends marks = posts marks := by
  simp [stands.queue, stands.starts_eq_ends idle, empty]

/-- How a dispatcher stands says what is so when a piece of work starts. -/
theorem Stands.starts (stands : Stands marks live) {next : Turn α} {entry : Entry α}
    {thread : Thread} {last : Live α} (step : live.Step next [.started entry thread] last) :
    Starts marks entry thread := by
  cases step with
  | start idle waits =>
  rename_i pending rest
  have posted :
      posts marks = Dispatcher.starts marks ++ pending.entry :: rest.map Pending.entry := by
    rw [stands.queue, waits, List.map_cons]
  have member : pending.entry ∈ posts marks := by simp [posted]
  constructor
  case posted => exact member
  case fresh =>
    have nodup := stands.nodup
    rw [posted] at nodup
    intro before
    exact List.disjoint_of_nodup_append nodup before (by simp)
  case alone => exact (stands.starts_eq_ends idle).symm
  case dispatched => rfl
  case elsewhere =>
    intro outside
    simp [outside, Poster.thread]
  case later =>
    intro number made
    cases stands.nested pending.entry member number made with
    | ended answered ended named => exact ⟨answered, _, ended, named⟩
    | runs runs => cases idle.symm.trans runs

end

namespace Live

/-- A schedule may be cut anywhere. -/
theorem workBy_append (first second : List (Turn α)) (live : Live α) :
    live.workBy (first ++ second) =
      ((live.workBy first).1 ++ ((live.workBy first).2.workBy second).1,
        ((live.workBy first).2.workBy second).2) :=
  play_append first second live

/-- A schedule may be cut at the turn that makes a mark. -/
theorem workBy_cut {turns : List (Turn α)} {live : Live α} {before after : List (Mark α)}
    {mark : Mark α} (seen : (live.workBy turns).1 = before ++ mark :: after) :
    ∃ first next rest last, (live.workBy first).1 = before ∧
      Step (live.workBy first).2 next [mark] last ∧ (last.workBy rest).1 = after := by
  rcases exists_turn_of_mark (fun next live => (live.step_turn next).length_le_one) seen with
    ⟨first, next, ⟨rest, rfl⟩, earlier, marked⟩
  have step := (live.workBy first).2.step_turn next
  rw [workBy, marked] at step
  refine ⟨first, next, rest, _, earlier, step, ?_⟩
  rw [workBy, play_append, play_append, earlier, play_cons, marked] at seen
  rw [workBy]
  simpa using seen

/-- A dispatcher that has been dropped takes no post in a turn. -/
theorem Step.posts_of_shut {live last : Live α} {next : Turn α} {marks : List (Mark α)}
    (step : Step live next marks last) (isShut : live.dispatcher.isOpen = false) :
    posts marks = [] ∧ last.dispatcher.isOpen = false := by
  cases step with
  | post _ isOpen | nested _ isOpen => cases isShut.symm.trans isOpen
  | dropInside | dropOutside => exact ⟨rfl, rfl⟩
  | stay | refuse | refuseNested | answer | start | finish | leave | join => exact ⟨rfl, isShut⟩

/-- A dispatcher that has been dropped takes no post any more. -/
theorem posts_workBy_of_shut (turns : List (Turn α)) {live : Live α}
    (isShut : live.dispatcher.isOpen = false) : posts (live.workBy turns).1 = [] := by
  induction turns generalizing live with
  | nil => rfl
  | cons next rest ih =>
      have step := (live.step_turn next).posts_of_shut isShut
      rw [workBy, play_cons, posts_append, step.1, List.nil_append]
      exact ih step.2

/-- If nothing comes from outside and nothing is refused, all runs in the order that is fixed at the
beginning. -/
theorem breadthFirst_workBy (turns : List (Turn α)) (live : Live α)
    (quiet : ∀ next ∈ turns, next.isPost = false)
    (taken : ∀ mark ∈ (live.workBy turns).1, mark.isRefused = false) :
    Work.breadthFirst live.toCome =
      (starts (live.workBy turns).1).map Entry.label ++
        Work.breadthFirst (live.workBy turns).2.toCome := by
  induction turns generalizing live with
  | nil => rfl
  | cons next rest ih =>
      rw [List.forall_mem_cons] at quiet
      rw [workBy, play_cons, List.forall_mem_append] at taken
      rw [(live.step_turn next).breadthFirst_toCome quiet.1 taken.1, ih _ quiet.2 taken.2,
        workBy, workBy, play_cons, starts_append, List.map_append, List.append_assoc]

/-- What waits comes first of all that has still to run. -/
theorem waiting_prefix (live : Live α) :
    (live.dispatcher.waiting.map Pending.entry).map Entry.label <+:
      Work.breadthFirst live.toCome := by
  rw [toCome, Work.breadthFirst_append, List.map_map, List.map_map]
  exact List.prefix_append _ _

/-- If nothing comes from outside, all that will be posted waits in the order that is fixed at the
beginning.  A dispatcher that begins to refuse posts takes none any more. -/
theorem posts_prefix_workBy (turns : List (Turn α)) (live : Live α)
    (quiet : ∀ next ∈ turns, next.isPost = false) :
    (live.dispatcher.waiting.map Pending.entry ++ posts (live.workBy turns).1).map Entry.label <+:
      Work.breadthFirst live.toCome := by
  induction turns generalizing live with
  | nil => simpa [workBy] using live.waiting_prefix
  | cons next rest ih =>
      rw [List.forall_mem_cons] at quiet
      cases isOpen : live.dispatcher.isOpen with
      | false =>
          rw [posts_workBy_of_shut _ isOpen, List.append_nil]
          exact live.waiting_prefix
      | true =>
          have step := live.step_turn next
          rw [step.breadthFirst_toCome quiet.1 (step.taken_of_open isOpen), workBy, play_cons,
            posts_append, ← List.append_assoc, ← step.queue, List.append_assoc, List.map_append]
          exact (List.prefix_append_right_inj _).mpr (ih _ quiet.2)

/-- Posting to a dispatcher that has just been made only lets the work wait. -/
theorem workBy_post (roots : List (Work α)) (live : Live α)
    (isOpen : live.dispatcher.isOpen = true) (idle : live.running = none) :
    starts (live.workBy (roots.map .post)).1 = [] ∧
      (live.workBy (roots.map .post)).2.toCome = live.toCome ++ roots := by
  induction roots generalizing live with
  | nil => simp [workBy]
  | cons work rest ih =>
      have posted : live.turn (.post work) =
          ([.posted ⟨live.taken, work.label, .outside⟩], live.accept work .outside) := by
        rw [turn, postOutside, post_of_open isOpen]
        rfl
      rcases ih (live.accept work .outside) isOpen idle with ⟨none, waits⟩
      rw [List.map_cons, workBy, play_cons, posted, starts_append]
      constructor
      · exact none
      · refine waits.trans ?_
        simp [toCome, accept, idle]

/-- Work that was posted at the beginning is followed by what it posts, level by level. -/
theorem posts_prefix_roots (roots : List (Work α)) (later : List (Turn α))
    (quiet : ∀ next ∈ later, next.isPost = false) :
    (posts (Live.workBy (roots.map .post ++ later) {}).1).map Entry.label <+:
      Work.breadthFirst roots := by
  rcases workBy_post roots {} rfl rfl with ⟨none, waits⟩
  have queue := (Stands.workBy (roots.map Turn.post)).queue
  rw [none, List.nil_append] at queue
  have order := posts_prefix_workBy later (Live.workBy (roots.map .post) {}).2 quiet
  rw [waits] at order
  rw [workBy_append, posts_append, queue]
  exact order

/-- All work that was posted at the beginning runs breadth-first, with what it posts. -/
theorem breadthFirst_roots (roots : List (Work α)) (later : List (Turn α))
    (quiet : ∀ next ∈ later, next.isPost = false)
    (taken : ∀ mark ∈ (Live.workBy (roots.map .post ++ later) {}).1, mark.isRefused = false) :
    Work.breadthFirst roots =
      (starts (Live.workBy (roots.map .post ++ later) {}).1).map Entry.label ++
        Work.breadthFirst (Live.workBy (roots.map .post ++ later) {}).2.toCome := by
  rw [workBy_append] at taken ⊢
  rw [List.forall_mem_append] at taken
  rcases workBy_post roots {} rfl rfl with ⟨none, waits⟩
  have order := breadthFirst_workBy later _ quiet taken.2
  rw [waits] at order
  rw [starts_append, none, List.nil_append]
  exact order

end Live

/-- When all work that comes from outside is posted before anything else happens, it runs
breadth-first. -/
theorem breadth (roots : List (Work α)) (later : List (Turn α))
    (quiet : ∀ next ∈ later, next.isPost = false) :
    Breadth roots (Live.workBy (roots.map .post ++ later) {}).1
      (Live.workBy (roots.map .post ++ later) {}).2 := by
  have stands := Stands.workBy (roots.map .post ++ later)
  constructor
  case order =>
    have started : starts (Live.workBy (roots.map .post ++ later) {}).1 <+: _ :=
      ⟨_, stands.queue.symm⟩
    exact (started.map _).trans (Live.posts_prefix_roots roots later quiet)
  case rest =>
    intro rests taken
    have order := Live.breadthFirst_roots roots later quiet taken
    rw [rests.toCome_eq, Work.breadthFirst_nil, List.append_nil] at order
    rw [← stands.starts_eq_ends rests.running_eq, drain_eq, order, List.map_map]
    exact ⟨rfl, rfl⟩

/-- However a dispatcher is used, it keeps its account; and when all work that comes from outside is
posted before anything else happens, it runs breadth-first. -/
theorem posts_account (turns : List (Turn α)) :
    Account (Live.workBy turns {}).1 (Live.workBy turns ({} : Live α)).2 ∧
      ∀ roots later, turns = roots.map .post ++ later → (∀ next ∈ later, next.isPost = false) →
        Breadth roots (Live.workBy turns {}).1 (Live.workBy turns {}).2 := by
  have stands := Stands.workBy turns
  constructor
  · constructor
    case started => exact ⟨_, stands.queue.symm⟩
    case ended => exact ⟨_, stands.serial.symm⟩
    case nodup => exact stands.nodup
    case starts =>
      intro before entry thread after seen
      rcases Live.workBy_cut seen with ⟨first, next, rest, last, rfl, step, -⟩
      exact (Stands.workBy first).starts step
    case dropped =>
      intro before after seen
      rcases Live.workBy_cut seen with ⟨first, next, rest, last, rfl, step, rfl⟩
      have earlier := Stands.workBy first
      have isOver : (Live.workBy first ({} : Live α)).2.isOver = true := by
        cases step
        assumption
      rcases earlier.afterwards isOver with ⟨isShut, idle, empty⟩
      refine ⟨earlier.ends_eq_posts idle empty, ?_⟩
      have later := Live.posts_workBy_of_shut rest (step.posts_of_shut isShut).2
      rw [seen, posts_append, posts_cons, later]
      exact List.append_nil _
    case rest =>
      intro rests
      exact ⟨stands.ends_eq_posts rests.running_eq rests.waiting_eq,
        rests.isJoining_eq stands.joining⟩
    case settles => exact Live.exists_rests _
  · rintro roots later rfl quiet
    exact breadth roots later quiet

/-- What a piece of work posts does not run elsewhere than on the thread that posted it, but later
on the same thread. -/
theorem exists_started_by_poster :
    ¬ ∀ (turns : List (Turn Nat)) (entry : Entry Nat) (thread : Thread),
      .started entry thread ∈ (Live.workBy turns {}).1 → thread ≠ entry.poster.thread := by
  intro elsewhere
  exact elsewhere
    [.post (.item 1 [.item 2 []]), .start, .nested, .answer, .finish, .start]
    ⟨1, 2, .inside 0⟩ .worker (by decide) rfl

end BridgeFinder.Dispatcher
