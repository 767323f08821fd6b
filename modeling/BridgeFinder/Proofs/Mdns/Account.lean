import BridgeFinder.Proofs.Mdns.Rounds
import BridgeFinder.Proofs.Task.Ending

/-!
# The account of a collection

Whatever the responder does and whenever it is cancelled, a collection browses every type first.  It
fails exactly if every type is refused.  Otherwise it goes in rounds: every sighting of a round
leads to its question, whether or not the responder refuses it, and in the end every host has the
first of its addresses.  How the sightings are spread over the rounds makes no difference to either.
-/

namespace BridgeFinder.Mdns

open BridgeFinder.Task (Mark Course NeverHangs)

variable {π α : Type} {responder : Responder π} {settings : Settings.Browse} {polls : Nat}
  {start : π}

/-! ## Browsing -/

/-- The questions with which a collection begins. -/
def opening (settings : Settings.Browse) : List Inquiry :=
  settings.serviceTypes.map .browse

/-- What can be seen of the beginning of a collection. -/
def openingMarks (settings : Settings.Browse) : List (Mark Activity) :=
  ((opening settings).map .inquiry).map .signal

/-- Take a reply into account. -/
def Browsed.add (browsed : Browsed) (reply : Except Failure Unit) : Browsed :=
  match reply with
  | .ok () => { browsed with accepted := browsed.accepted + 1 }
  | .error failure => { browsed with refusal := some failure }

/-- The failure of a collection whose types are all refused: that of the last one. -/
def lastRefusal (replies : List (Except Failure Unit)) : Failure :=
  match replies.getLast? with
  | some (.error failure) => failure
  | some (.ok ()) | none => .mdns "no service types to browse"

/-- Browsing accepts nothing exactly if every type is refused. -/
theorem accepted_foldl (replies : List (Except Failure Unit)) (browsed : Browsed) :
    (replies.foldl Browsed.add browsed).accepted = 0 ↔
      browsed.accepted = 0 ∧ .ok () ∉ replies := by
  induction replies generalizing browsed with
  | nil => simp
  | cons reply rest ih =>
      rw [List.foldl_cons, ih]
      cases reply <;> simp [Browsed.add]

/-- If every type is refused, the last refusal is kept. -/
theorem refusal_foldl {replies : List (Except Failure Unit)} (refused : .ok () ∉ replies) :
    (replies.foldl Browsed.add {}).refusal.getD (.mdns "no service types to browse") =
      lastRefusal replies := by
  rcases List.eq_nil_or_concat replies with rfl | ⟨before, reply, rfl⟩
  · rfl
  · cases reply with
    | ok => simp at refused
    | error failure => simp [List.foldl_append, Browsed.add, lastRefusal]

theorem Collect.browse_cases {types : List String} {browsed : Browsed} {state : π}
    {next : Browsed → π → Task Activity α} {token : Bool} {marks : List (Mark Activity)}
    {last : Task.Run Activity α}
    (course : Course ⟨token, browse responder types browsed state next⟩ marks last) :
    Task.Led
      (next ((responder.replies (types.map .browse) state).foldl Browsed.add browsed)
        (responder.after (types.map .browse) state))
      ((types.map .browse).map .inquiry) marks last := by
  induction types generalizing browsed state token marks with
  | nil => exact .nil course
  | cons type rest ih => exact .cons course ih

/-! ## Ending -/

namespace Collect

theorem neverHangs_browse {types : List String} {browsed : Browsed} {state : π}
    {next : Browsed → π → Task Activity α}
    (later : ∀ browsed state, NeverHangs (next browsed state)) :
    NeverHangs (browse responder types browsed state next) := by
  induction types generalizing browsed state with
  | nil => exact later browsed state
  | cons type rest ih => exact .emit ih

theorem neverHangs_follow {sightings : List Sighting} {hosts : Hosts} {state : π}
    {next : Hosts → π → Task Activity α} (later : ∀ hosts state, NeverHangs (next hosts state)) :
    NeverHangs (follow responder sightings hosts state next) := by
  induction sightings generalizing hosts state with
  | nil => exact later hosts state
  | cons sighting rest ih =>
      cases sighting with
      | found | resolved => exact .emit ih
      | located => exact ih

theorem neverHangs_poll {pollTimeout window : Nat} {hosts : Hosts} {state : π} :
    NeverHangs (poll responder pollTimeout polls window hosts state) := by
  induction polls generalizing window hosts state with
  | zero =>
      rw [poll]
      apply NeverHangs.check
      intro cancelled
      split <;> exact .done _
  | succ polls ih =>
      rw [poll]
      apply NeverHangs.check
      intro cancelled
      split
      · exact .done _
      · rcases responder.poll state with ⟨_ | ⟨sighting, rest⟩, next⟩
        · exact .emit (.emit (.hold ih))
        · exact neverHangs_follow fun _ _ => ih

end Collect

theorem neverHangs_collect : NeverHangs (collect responder settings polls start) := by
  apply Collect.neverHangs_browse
  intro browsed state
  split
  · exact .done _
  · exact Collect.neverHangs_poll.map

/-! ## Responders that are not influenced -/

namespace Responder

/-- What polls come to, one after another, while nothing is asked. -/
def untouched (responder : Responder π) : Nat → π → List Sighting
  | 0, _ => []
  | count + 1, state =>
      (responder.poll state).1 ++ untouched responder count (responder.poll state).2

/-- What a responder sights does not depend on what it is asked. -/
def IsDeaf (responder : Responder π) : Prop :=
  ∀ inquiry count state,
    responder.untouched count (responder.ask inquiry state).2 = responder.untouched count state

/-- Two responders differ at most in their replies to questions other than browsing. -/
structure Agrees (responder other : Responder π) : Prop where
  browse : ∀ serviceType state,
    other.ask (.browse serviceType) state = responder.ask (.browse serviceType) state
  after : ∀ inquiry state, (other.ask inquiry state).2 = (responder.ask inquiry state).2
  poll : other.poll = responder.poll
  lasts : other.lasts = responder.lasts

theorem IsDeaf.untouched_after (deaf : responder.IsDeaf) (inquiries : List Inquiry) (count : Nat)
    (state : π) :
    responder.untouched count (responder.after inquiries state) =
      responder.untouched count state := by
  induction inquiries generalizing state with
  | nil => rfl
  | cons inquiry rest ih => exact (ih _).trans (deaf inquiry count state)

/-- A round sights what is polled, and puts the questions that it leads to. -/
theorem round_eq {pollTimeout window : Nat} {state : π} {round : Round} {next : Nat × π}
    (same : responder.round pollTimeout window state = (round, next)) :
    round.sightings = (responder.poll state).1 ∧
      next.2 = responder.after (questions round.sightings) (responder.poll state).2 := by
  rcases polled : responder.poll state with ⟨_ | ⟨sighting, rest⟩, later⟩
  · simp only [Responder.round, polled] at same
    cases same
    exact ⟨rfl, rfl⟩
  · simp only [Responder.round, polled] at same
    cases same
    exact ⟨rfl, rfl⟩

/-- Rounds at a responder that is not influenced sight what it would have given anyway. -/
theorem IsDeaf.sightings_eq (deaf : responder.IsDeaf) {pollTimeout : Nat} {stage left : Nat × π}
    {rounds : List Round} (ran : Rounds responder pollTimeout stage rounds left) :
    sightings rounds = responder.untouched rounds.length stage.2 := by
  induction ran with
  | none => rfl
  | cons _ same _ ih =>
      rcases round_eq same with ⟨polled, after⟩
      rw [sightings_cons, ih, after, deaf.untouched_after, polled]
      rfl

end Responder

namespace Collect

variable {other : Responder π} (agrees : responder.Agrees other)
include agrees

theorem browse_congr {types : List String} {browsed : Browsed} {state : π}
    (next : Browsed → π → Task Activity α) :
    browse other types browsed state next = browse responder types browsed state next := by
  induction types generalizing browsed state with
  | nil => rfl
  | cons type rest ih =>
      simp only [browse, agrees.browse]
      rw [ih]

theorem follow_congr {sightings : List Sighting} {hosts : Hosts} {state : π}
    (next : Hosts → π → Task Activity α) :
    follow other sightings hosts state next = follow responder sightings hosts state next := by
  induction sightings generalizing hosts state with
  | nil => rfl
  | cons sighting rest ih =>
      cases sighting with
      | found | resolved =>
          simp only [follow, Sighting.next?, agrees.after]
          rw [ih]
      | located => exact ih

theorem poll_congr {pollTimeout window : Nat} {hosts : Hosts} {state : π} :
    poll other pollTimeout polls window hosts state =
      poll responder pollTimeout polls window hosts state := by
  induction polls generalizing window hosts state with
  | zero => rfl
  | succ polls ih =>
      have later : poll other pollTimeout polls = poll responder pollTimeout polls := by
        funext window hosts state
        exact ih
      simp only [poll, agrees.poll, agrees.lasts, follow_congr agrees, later]

end Collect

/-- Replies to questions other than browsing make no difference. -/
theorem Responder.Agrees.collect_eq {other : Responder π} (agrees : responder.Agrees other) :
    collect other settings polls start = collect responder settings polls start := by
  simp only [collect, Collect.browse_congr agrees, Collect.poll_congr agrees]

/-! ## The account -/

/-- What rounds have come to when a collection has ended with the hosts. -/
structure Concludes (responder : Responder π) (settings : Settings.Browse) (polls : Nat) (start : π)
    (marks : List (Mark Activity)) (cancelled : Bool) (hosts : Hosts) (rounds : List Round)
    (left : Nat × π) (found : Bool) : Prop where
  /-- The rounds follow the opening, and one another while the window is open. -/
  ran : Rounds responder settings.pollTimeout.toNat
    (settings.window.toNat, responder.after (opening settings) start) rounds left
  few : rounds.length ≤ polls
  /-- Before every round the token had not been fired.  Nothing else happens, and in the end the
  collection looks at its token once more. -/
  shown : Task.ownMarks marks = openingMarks settings ++ roundMarks rounds ++ [.looked found]
  /-- It ends when its token has been fired or its window is over. -/
  isOver : found = true ∧ cancelled = true ∨ left.1 = 0 ∨ rounds.length = polls
  /-- Every host that was sighted has the first of its addresses, and there is no other host. -/
  first : hosts.AreFirst (locations (sightings rounds))
  /-- Every sighting has led to its question, in their order. -/
  asked : asked marks = opening settings ++ questions (sightings rounds)

/-- The account of a collection, by what can be seen of it and what has become of it. -/
structure Account (responder : Responder π) (settings : Settings.Browse) (polls : Nat) (start : π)
    (marks : List (Mark Activity)) (last : Task.Run Activity (Except Failure Hosts)) : Prop where
  /-- Every type is browsed once, in their order, before anything else. -/
  browses : Task.ownMarks marks <+: openingMarks settings ∨
    openingMarks settings <+: Task.ownMarks marks
  /-- If no type is accepted, nothing else is ever seen, and the collection fails. -/
  refused : .ok () ∉ responder.replies (opening settings) start →
    Task.ownMarks marks <+: openingMarks settings ∧
      ∀ result, last.task = .done result → Task.ownMarks marks = openingMarks settings ∧
        result = .error (lastRefusal (responder.replies (opening settings) start))
  /-- Otherwise it is in some round as long as it has not ended. -/
  going : .ok () ∈ responder.replies (opening settings) start → last.task.output? = none →
    ∃ rounds left, Rounds responder settings.pollTimeout.toNat
        (settings.window.toNat, responder.after (opening settings) start) rounds left ∧
      rounds.length ≤ polls ∧
      Task.ownMarks marks <+: openingMarks settings ++ roundMarks rounds
  /-- It ends with the hosts that it has come by in its rounds. -/
  concludes : .ok () ∈ responder.replies (opening settings) start →
    ∀ result, last.task = .done result → ∃ hosts rounds left found, result = .ok hosts ∧
      Concludes responder settings polls start marks last.token hosts rounds left found

/-! ### What has been asked -/

theorem asked_ownMarks (marks : List (Mark Activity)) :
    asked (Task.ownMarks marks) = asked marks := by
  rw [asked, Task.signals_ownMarks, asked]

theorem asked_inquiries (inquiries : List Inquiry) :
    asked ((inquiries.map .inquiry).map .signal) = inquiries := by
  induction inquiries with
  | nil => rfl
  | cons inquiry rest ih => exact congrArg (inquiry :: ·) ih

theorem asked_roundMarks (rounds : List Round) :
    asked (roundMarks rounds) = questions (sightings rounds) := by
  induction rounds with
  | nil => rfl
  | cons round rest ih =>
      rw [roundMarks_cons, asked_append, sightings_cons, questions_append, ih]
      congr
      rcases round with ⟨_ | ⟨sighting, others⟩, pause⟩
      · rfl
      · exact asked_inquiries (questions (sighting :: others))

/-! ### How far it has come -/

section

variable {token : Bool} {marks : List (Mark Activity)}
  {last : Task.Run Activity (Except Failure Hosts)}

/-- A collection that is still browsing. -/
theorem Account.of_opening (going : last.task.output? = none)
    (part : Task.ownMarks marks <+: openingMarks settings) :
    Account responder settings polls start marks last := by
  have unended : ∀ result, last.task ≠ .done result := by
    intro result ended
    rw [ended] at going
    cases going
  constructor
  · exact .inl part
  · exact fun _ => ⟨part, fun result ended => absurd ended (unended result)⟩
  · exact fun _ _ => ⟨[], _, .none _, Nat.zero_le _, part.trans (List.prefix_append _ _)⟩
  · exact fun _ result ended => absurd ended (unended result)

/-- A collection whose types have all been refused. -/
theorem Account.of_refused {after : Bool}
    (refused : .ok () ∉ responder.replies (opening settings) start)
    (shown : Task.ownMarks marks = openingMarks settings) :
    Account responder settings polls start marks
      ⟨after, .done (.error (lastRefusal (responder.replies (opening settings) start)))⟩ := by
  constructor
  · exact .inl (shown ▸ List.prefix_rfl)
  · intro _
    refine ⟨shown ▸ List.prefix_rfl, ?_⟩
    rintro _ ⟨⟩
    exact ⟨shown, rfl⟩
  · exact fun accepted => absurd accepted refused
  · exact fun accepted => absurd accepted refused

/-- A collection that has browsed and polls. -/
theorem Account.of_polled {before more : List (Mark Activity)} {after : Bool}
    {rest : Task Activity Hosts} (accepted : .ok () ∈ responder.replies (opening settings) start)
    (shown : Task.ownMarks before = openingMarks settings)
    (polled : Polled responder settings.pollTimeout.toNat polls
      (settings.window.toNat, responder.after (opening settings) start) [] more ⟨after, rest⟩) :
    Account responder settings polls start (before ++ more) ⟨after, rest.map .ok⟩ := by
  have browsed : openingMarks settings <+: Task.ownMarks (before ++ more) := by
    rw [Task.ownMarks_append, shown]
    exact List.prefix_append _ _
  cases polled with
  | going ran few going part =>
      have going : (rest.map Except.ok : Task Activity (Except Failure Hosts)).output? = none := by
        rw [Task.output?_map, going]
        rfl
      constructor
      · exact .inr browsed
      · exact fun refused => absurd accepted refused
      · intro _ _
        refine ⟨_, _, ran, few, ?_⟩
        rw [Task.ownMarks_append, shown]
        exact (List.prefix_append_right_inj _).mpr part
      · intro _ result ended
        cases going.symm.trans (congrArg Task.output? ended)
  | @ended rounds _ left found _ ran few isOver own cancelled =>
      have all : Task.ownMarks (before ++ more) =
          openingMarks settings ++ roundMarks rounds ++ [.looked found] := by
        rw [Task.ownMarks_append, shown, own, List.append_assoc]
      constructor
      · exact .inr browsed
      · exact fun refused => absurd accepted refused
      · exact fun _ going => nomatch going
      · rintro _ _ ⟨⟩
        refine ⟨_, rounds, left, found, rfl, ran, few, all, ?_, ?_, ?_⟩
        · exact isOver.imp_left fun fired => ⟨fired, cancelled fired⟩
        · exact Hosts.AreFirst.nil.noting (sightings rounds)
        · rw [← asked_ownMarks, all, asked_append, asked_append, asked_roundMarks, openingMarks,
            asked_inquiries]
          exact List.append_nil _

/-- Every course of a collection comes to its account. -/
theorem account_of_course
    (course : Course ⟨token, collect responder settings polls start⟩ marks last) :
    Account responder settings polls start marks last := by
  have led := Collect.browse_cases course
  have same : settings.serviceTypes.map Inquiry.browse = opening settings := rfl
  rw [same] at led
  cases led with
  | inside going part => exact .of_opening going part
  | through shown rest =>
      have none := accepted_foldl (responder.replies (opening settings) start) {}
      simp only [true_and] at none
      split at rest
      · rename_i refused
        have refused := none.mp refused
        rcases rest.done_cases with ⟨after, firing, rfl⟩
        rw [refusal_foldl refused]
        apply Account.of_refused refused
        rw [Task.ownMarks_append, shown, firing.ownMarks_eq, List.append_nil]
        rfl
      · rename_i accepted
        have accepted := Decidable.of_not_not fun refused => accepted (none.mpr refused)
        rcases rest.map_cases with ⟨after, rest, polled, rfl⟩
        exact .of_polled accepted shown (Collect.polled_of_course polled)

end

/-! ### How the sightings are spread -/

/-- Every round looks at the token once. -/
theorem looks_roundMarks (rounds : List Round) :
    ((roundMarks rounds).filterMap Mark.look?).length = rounds.length := by
  induction rounds with
  | nil => rfl
  | cons round rest ih =>
      have silent : (round.activities.map Mark.signal).filterMap Mark.look? = [] := by
        simp [List.filterMap_map, Mark.look?, Function.comp_def]
      have one : round.marks.filterMap Mark.look? = [false] :=
        congrArg (false :: ·) silent
      rw [roundMarks_cons, List.filterMap_append, one, List.singleton_append, List.length_cons, ih,
        List.length_cons]

/-- A collection has looked at its token once for every round, and once more in the end. -/
theorem Concludes.looks {marks : List (Mark Activity)} {cancelled found : Bool} {hosts : Hosts}
    {rounds : List Round} {left : Nat × π}
    (concludes : Concludes responder settings polls start marks cancelled hosts rounds left found) :
    (marks.filterMap Mark.look?).length = rounds.length + 1 := by
  have silent : (openingMarks settings).filterMap Mark.look? = [] := by
    simp [openingMarks, List.filterMap_map, Mark.look?, Function.comp_def]
  have last : [Mark.looked (σ := Activity) found].filterMap Mark.look? = [found] := rfl
  rw [← Task.looks_ownMarks, concludes.shown, List.filterMap_append, List.filterMap_append, silent,
    last, List.nil_append, List.length_append, looks_roundMarks, List.length_singleton]

/-- The account of a collection, by whatever schedule and with whatever responder; and it always
comes to its end.  Replies to questions other than browsing make no difference.  If the responder is
not influenced by questions and everything that it ever sights has been polled, the hosts and the
questions depend on nothing else: not on how the sightings are spread over the polls. -/
theorem collect_account (responder : Responder π) (settings : Settings.Browse) (polls : Nat)
    (start : π) :
    (∀ turns token,
      let run := (collect responder settings polls start).runBy turns token
      Account responder settings polls start run.1 run.2 ∧
        ∃ more, .fire ∉ more ∧ ∃ result,
          ((collect responder settings polls start).runBy (turns ++ more) token).2.task =
            .done result) ∧
      (∀ other, responder.Agrees other →
        collect other settings polls start = collect responder settings polls start) ∧
      ∀ events count, responder.IsDeaf →
        (∀ more, responder.untouched (count + more) start = events) →
        ∀ turns token hosts,
          let run := (collect responder settings polls start).runBy turns token
          run.2.task = .done (.ok hosts) → count < (run.1.filterMap Mark.look?).length →
            hosts.AreFirst (locations events) ∧
              asked run.1 = opening settings ++ questions events := by
  have account (turns : List Task.Turn) (token : Bool) :
      let run := (collect responder settings polls start).runBy turns token
      Account responder settings polls start run.1 run.2 :=
    account_of_course (Task.course_runBy turns token _)
  refine ⟨?_, ?_, ?_⟩
  · intro turns token run
    exact ⟨account turns token, neverHangs_collect.exists_ended turns token⟩
  · exact fun other agrees => agrees.collect_eq
  · intro events count deaf all turns token hosts run ended enough
    have accepted : .ok () ∈ responder.replies (opening settings) start := by
      by_contra refused
      cases ((account turns token).refused refused).2 _ ended |>.2
    rcases (account turns token).concludes accepted _ ended with
      ⟨_, rounds, left, found, ⟨⟩, concludes⟩
    rw [concludes.looks] at enough
    have every : sightings rounds = events := by
      rw [deaf.sightings_eq concludes.ran, deaf.untouched_after,
        ← all (rounds.length - count), Nat.add_sub_cancel' (Nat.le_of_lt_succ enough)]
    rw [← every]
    exact ⟨concludes.first, concludes.asked⟩

end BridgeFinder.Mdns
