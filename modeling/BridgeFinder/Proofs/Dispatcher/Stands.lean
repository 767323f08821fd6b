import BridgeFinder.Dispatcher.Live
import BridgeFinder.Proofs.Schedule
import Mathlib.Data.List.Nodup

/-!
# How a dispatcher stands

What was posted has been started or waits, in the order of the posts, and what was started has run
or is running.  A post that a piece of work has made returns before that piece of work comes to its
end.
-/

namespace BridgeFinder.Dispatcher

variable {α : Type}

/-- The post that is taken. -/
def Mark.posted? : Mark α → Option (Entry α)
  | posted entry => some entry
  | _ => none

/-- The piece of work that starts. -/
def Mark.started? : Mark α → Option (Entry α)
  | started entry _ => some entry
  | _ => none

/-- The piece of work that has run. -/
def Mark.ended? : Mark α → Option (Entry α)
  | ended entry => some entry
  | _ => none

/-- A post is refused. -/
def Mark.isRefused : Mark α → Bool
  | refused .. => true
  | _ => false

/-- The posts that were taken. -/
def posts (marks : List (Mark α)) : List (Entry α) :=
  marks.filterMap Mark.posted?

/-- The pieces of work that were started. -/
def starts (marks : List (Mark α)) : List (Entry α) :=
  marks.filterMap Mark.started?

/-- The pieces of work that have run. -/
def ends (marks : List (Mark α)) : List (Entry α) :=
  marks.filterMap Mark.ended?

section

variable (mark : Mark α) (marks more : List (Mark α))

@[simp]
theorem posts_nil : posts ([] : List (Mark α)) = [] :=
  rfl

@[simp]
theorem starts_nil : starts ([] : List (Mark α)) = [] :=
  rfl

@[simp]
theorem ends_nil : ends ([] : List (Mark α)) = [] :=
  rfl

@[simp]
theorem posts_cons : posts (mark :: marks) = mark.posted?.toList ++ posts marks := by
  cases mark <;> rfl

@[simp]
theorem starts_cons : starts (mark :: marks) = mark.started?.toList ++ starts marks := by
  cases mark <;> rfl

@[simp]
theorem ends_cons : ends (mark :: marks) = mark.ended?.toList ++ ends marks := by
  cases mark <;> rfl

@[simp]
theorem posts_append : posts (marks ++ more) = posts marks ++ posts more :=
  List.filterMap_append

@[simp]
theorem starts_append : starts (marks ++ more) = starts marks ++ starts more :=
  List.filterMap_append

@[simp]
theorem ends_append : ends (marks ++ more) = ends marks ++ ends more :=
  List.filterMap_append

end

namespace Live

/-- Take a post. -/
def accept (work : Work α) (poster : Poster) (live : Live α) : Live α :=
  { live with
    dispatcher := { live.dispatcher with
      waiting := live.dispatcher.waiting ++ [⟨⟨live.taken, work.label, poster⟩, work.posts⟩] }
    taken := live.taken + 1 }

/-- A post is taken as long as the dispatcher has not been dropped. -/
theorem post_of_open {live : Live α} (isOpen : live.dispatcher.isOpen = true) (work : Work α)
    (poster : Poster) :
    live.post work poster =
      (some ⟨live.taken, work.label, poster⟩, live.accept work poster) := by
  simp [post, Dispatcher.post, accept, isOpen]

/-- A dispatcher that has been dropped refuses every post. -/
theorem post_of_shut {live : Live α} (isShut : live.dispatcher.isOpen = false) (work : Work α)
    (poster : Poster) : live.post work poster = (none, live) := by
  simp [post, Dispatcher.post, isShut]

/-- What a turn comes to, if it can be taken. -/
inductive Step (live : Live α) : Turn α → List (Mark α) → Live α → Prop where
  | stay (next : Turn α) : Step live next [] live
  | post (work : Work α) (isOpen : live.dispatcher.isOpen = true) :
      Step live (.post work) [.posted ⟨live.taken, work.label, .outside⟩]
        (live.accept work .outside)
  | refuse (work : Work α) (isShut : live.dispatcher.isOpen = false) :
      Step live (.post work) [.refused work.label .outside] live
  | nested {entry : Entry α} {work : Work α} {rest : List (Work α)}
      (runs : live.running = some ⟨entry, work :: rest, none⟩)
      (isOpen : live.dispatcher.isOpen = true) :
      Step live .nested [.posted ⟨live.taken, work.label, .inside entry.number⟩]
        { live.accept work (.inside entry.number) with
          running := some ⟨entry, rest, some ⟨live.taken, work.label, .inside entry.number⟩⟩ }
  | refuseNested {entry : Entry α} {work : Work α} {rest : List (Work α)}
      (runs : live.running = some ⟨entry, work :: rest, none⟩)
      (isShut : live.dispatcher.isOpen = false) :
      Step live .nested [.refused work.label (.inside entry.number)]
        { live with running := some ⟨entry, rest, none⟩ }
  | answer {entry posting : Entry α} {rest : List (Work α)}
      (runs : live.running = some ⟨entry, rest, some posting⟩) :
      Step live .answer [.answered posting] { live with running := some ⟨entry, rest, none⟩ }
  | start {pending : Pending α} {rest : List (Pending α)} (idle : live.running = none)
      (waits : live.dispatcher.waiting = pending :: rest) :
      Step live .start [.started pending.entry .worker]
        { live with
          dispatcher := { live.dispatcher with waiting := rest }
          running := some ⟨pending.entry, pending.posts, none⟩ }
  | finish {entry : Entry α} (runs : live.running = some ⟨entry, [], none⟩) :
      Step live .finish [.ended entry] { live with running := none }
  | dropInside :
      Step live (.drop .worker) [.dropped .worker] { live with dispatcher := live.dispatcher.shut }
  | dropOutside :
      Step live (.drop .caller) []
        { live with dispatcher := live.dispatcher.shut, isJoining := true }
  | leave (idle : live.running = none) (empty : live.dispatcher.waiting = [])
      (isShut : live.dispatcher.isOpen = false) : Step live .leave [] { live with isOver := true }
  | join (joining : live.isJoining = true) (isOver : live.isOver = true) :
      Step live .join [.dropped .caller] { live with isJoining := false }

theorem step_nested (live : Live α) : Step live .nested live.nested.1 live.nested.2 := by
  unfold nested
  split
  next entry work rest runs =>
    cases isOpen : live.dispatcher.isOpen with
    | true =>
        rw [post_of_open isOpen]
        exact .nested runs isOpen
    | false =>
        rw [post_of_shut isOpen]
        exact .refuseNested runs isOpen
  next => exact .stay _

theorem step_start (live : Live α) : Step live .start live.start.1 live.start.2 := by
  unfold start next?
  rcases live with ⟨⟨waiting, isOpen⟩, taken, running, isJoining, isOver⟩
  cases running with
  | some running => exact .stay _
  | none =>
      cases waiting with
      | nil => exact .stay _
      | cons pending rest => exact .start rfl rfl

theorem step_leave (live : Live α) : Step live .leave [] live.leave := by
  unfold leave next?
  rcases live with ⟨⟨waiting, isOpen⟩, taken, running, isJoining, isOver⟩
  cases running with
  | some running => exact .stay _
  | none =>
      cases waiting with
      | cons pending rest => exact .stay _
      | nil =>
          cases isOpen with
          | true => exact .stay _
          | false => exact .leave rfl rfl rfl

theorem step_drop (thread : Thread) (live : Live α) :
    Step live (.drop thread) (live.drop thread).1 (live.drop thread).2 := by
  unfold drop
  split
  · cases thread with
    | caller => exact .dropOutside
    | worker => exact .dropInside
  · exact .stay _

/-- Every turn is one of these. -/
theorem step_turn (next : Turn α) (live : Live α) :
    Step live next (live.turn next).1 (live.turn next).2 := by
  cases next with
  | post work =>
      rw [turn, postOutside]
      cases isOpen : live.dispatcher.isOpen with
      | true =>
          rw [post_of_open isOpen]
          exact .post work isOpen
      | false =>
          rw [post_of_shut isOpen]
          exact .refuse work isOpen
  | nested => exact live.step_nested
  | answer =>
      rw [turn, answer]
      split
      next runs => exact .answer runs
      next => exact .stay _
  | start => exact live.step_start
  | finish =>
      rw [turn, finish]
      split
      next runs => exact .finish runs
      next => exact .stay _
  | drop thread => exact live.step_drop thread
  | leave => exact live.step_leave
  | join =>
      rw [turn, join]
      split
      next both =>
        rw [Bool.and_eq_true] at both
        exact .join both.1 both.2
      next => exact .stay _

namespace Step

variable {live last : Live α} {next : Turn α} {marks : List (Mark α)}

/-- No turn makes more than one mark. -/
theorem length_le_one (step : Step live next marks last) : marks.length ≤ 1 := by
  cases step <;> simp

/-- As long as the dispatcher has not been dropped, nothing is refused. -/
theorem taken_of_open (step : Step live next marks last)
    (isOpen : live.dispatcher.isOpen = true) : ∀ mark ∈ marks, mark.isRefused = false := by
  cases step with
  | refuse _ isShut | refuseNested _ isShut => cases isShut.symm.trans isOpen
  | stay | post | nested | answer | start | finish | dropInside | dropOutside | leave | join =>
      simp [Mark.isRefused]

/-- What starts is the first that waits, and what is posted waits last. -/
theorem queue (step : Step live next marks last) :
    starts marks ++ last.dispatcher.waiting.map Pending.entry =
      live.dispatcher.waiting.map Pending.entry ++ posts marks := by
  cases step with
  | start idle waits => simp [Mark.started?, Mark.posted?, waits]
  | stay | post | refuse | nested | refuseNested | answer | finish | dropInside | dropOutside
  | leave | join => simp [accept, shut, Mark.started?, Mark.posted?]

/-- What ends is what was running, and what starts is running. -/
theorem serial (step : Step live next marks last) :
    ends marks ++ (last.running.map Running.entry).toList =
      (live.running.map Running.entry).toList ++ starts marks := by
  cases step with
  | nested runs | refuseNested runs | answer runs | finish runs | start runs =>
      simp [Mark.ended?, Mark.started?, runs]
  | stay | post | refuse | dropInside | dropOutside | leave | join =>
      simp [accept, Mark.ended?, Mark.started?]

/-- The posts that are taken are numbered one after another. -/
theorem numbers (step : Step live next marks last) :
    List.range live.taken ++ (posts marks).map Entry.number = List.range last.taken := by
  cases step with
  | post | nested => simp [Mark.posted?, accept, List.range_succ]
  | stay | refuse | refuseNested | answer | start | finish | dropInside | dropOutside | leave
  | join => simp [Mark.posted?]

end Step

end Live

/-- A piece of work made this post: it has run, after the post had returned, or it is running and
the post may still have to return. -/
inductive IsNested (marks : List (Mark α)) (live : Live α) (entry : Entry α) (number : Nat) :
    Prop where
  | ended {parent : Entry α} (answered : .answered entry ∈ marks) (ended : parent ∈ ends marks)
      (named : parent.number = number)
  | runs {running : Running α} (runs : live.running = some running)
      (named : running.entry.number = number)
      (posted : .answered entry ∈ marks ∨ running.posting = some entry)

/-- How a dispatcher stands. -/
structure Stands (marks : List (Mark α)) (live : Live α) : Prop where
  /-- What was posted has been started or waits. -/
  queue : posts marks = starts marks ++ live.dispatcher.waiting.map Pending.entry
  /-- What was started has run or is running. -/
  serial : starts marks = ends marks ++ (live.running.map Running.entry).toList
  numbers : (posts marks).map Entry.number = List.range live.taken
  nested : ∀ entry ∈ posts marks, ∀ number, entry.poster = .inside number →
    IsNested marks live entry number
  joining : live.isJoining = true → live.dispatcher.isOpen = false
  afterwards : live.isOver = true →
    live.dispatcher.isOpen = false ∧ live.running = none ∧ live.dispatcher.waiting = []

section

open Live (Step)

variable {marks more : List (Mark α)} {live last : Live α} {next : Turn α} {entry : Entry α}
  {number : Nat}

/-- A piece of work comes to its end only when the posts that it has made have returned. -/
theorem IsNested.step (nested : IsNested marks live entry number)
    (step : Step live next more last) : IsNested (marks ++ more) last entry number := by
  cases nested with
  | ended answered ended named =>
      refine .ended (List.mem_append_left _ answered) ?_ named
      rw [ends_append]
      exact List.mem_append_left _ ended
  | runs isRunning named posted =>
      have kept := posted.imp_left (List.mem_append_left more)
      cases step with
      | stay | post | refuse | dropInside | dropOutside | leave | join =>
          exact .runs isRunning named kept
      | nested runs | refuseNested runs =>
          cases runs.symm.trans isRunning
          refine .runs rfl named (.inl (kept.resolve_right ?_))
          simp
      | answer runs =>
          cases runs.symm.trans isRunning
          refine .runs rfl named (.inl ?_)
          rcases kept with answered | posting
          · exact answered
          · cases posting
            simp
      | start idle => cases idle.symm.trans isRunning
      | finish runs =>
          cases runs.symm.trans isRunning
          refine .ended (kept.resolve_right ?_) ?_ named
          · simp
          · simp [Mark.ended?]

namespace Stands

theorem fresh : Stands [] ({} : Live α) := by
  constructor <;> simp

/-- What was posted has a number of its own. -/
theorem nodup (stands : Stands marks live) : (posts marks).Nodup := by
  have numbers : ((posts marks).map Entry.number).Nodup := by
    rw [stands.numbers]
    exact List.nodup_range
  exact List.Nodup.of_map _ numbers

/-- A post that a piece of work makes is one of the piece that runs. -/
theorem nested_step (stands : Stands marks live) (step : Step live next more last)
    (posted : entry ∈ posts (marks ++ more)) (made : entry.poster = .inside number) :
    IsNested (marks ++ more) last entry number := by
  rw [posts_append, List.mem_append] at posted
  rcases posted with before | now
  · exact (stands.nested entry before number made).step step
  · cases step with
    | post work isOpen =>
        obtain rfl := List.mem_singleton.mp now
        cases made
    | nested runs isOpen =>
        obtain rfl := List.mem_singleton.mp now
        cases made
        exact .runs rfl rfl (.inr rfl)
    | stay | refuse | refuseNested | answer | start | finish | dropInside | dropOutside | leave
    | join => cases now

/-- Every turn keeps how the dispatcher stands. -/
theorem step (stands : Stands marks live) (step : Step live next more last) :
    Stands (marks ++ more) last := by
  constructor
  case queue =>
    rw [posts_append, starts_append, stands.queue, List.append_assoc, List.append_assoc, step.queue]
  case serial =>
    rw [starts_append, ends_append, stands.serial, List.append_assoc, List.append_assoc,
      step.serial]
  case numbers => rw [posts_append, List.map_append, stands.numbers, step.numbers]
  case nested => exact fun entry posted number => stands.nested_step step posted
  case joining =>
    cases step with
    | dropInside | dropOutside => exact fun _ => rfl
    | join => exact nofun
    | stay | post | refuse | nested | refuseNested | answer | start | finish | leave =>
        exact stands.joining
  case afterwards =>
    cases step with
    | post _ isOpen =>
        intro isOver
        cases isOpen.symm.trans (stands.afterwards isOver).1
    | nested runs | refuseNested runs | answer runs | finish runs =>
        intro isOver
        cases runs.symm.trans (stands.afterwards isOver).2.1
    | start idle waits =>
        intro isOver
        cases waits.symm.trans (stands.afterwards isOver).2.2
    | leave idle empty isShut => exact fun _ => ⟨isShut, idle, empty⟩
    | dropInside | dropOutside => exact fun isOver => ⟨rfl, (stands.afterwards isOver).2⟩
    | stay | refuse | join => exact stands.afterwards

theorem workBy (turns : List (Turn α)) :
    Stands (Live.workBy turns ({} : Live α)).1 (Live.workBy turns ({} : Live α)).2 :=
  play_preserves (fun _ live next stands => stands.step (live.step_turn next)) turns fresh

end Stands

end

end BridgeFinder.Dispatcher
