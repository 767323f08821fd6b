import BridgeFinder.Mdns.Collect
import BridgeFinder.Proofs.Task.Marks
import Mathlib.Data.List.Nodup

/-!
# The rounds of a collection

A collection goes in rounds.  In every round it looks at its token, polls the responder, and puts
the questions that the sightings lead to, before the next round begins.  Which sightings the rounds
come to is up to the responder; what is asked and what is noted follows from the sightings alone.
-/

namespace BridgeFinder.Mdns

open BridgeFinder.Task (Mark Course)

/-! ## What sightings come to -/

/-- The address of a host that is sighted. -/
def Sighting.location? : Sighting → Option (String × Net.Ipv4)
  | located host address => some (host, address)
  | found .. | resolved .. => none

/-- The addresses of hosts that are sighted, in their order. -/
def locations (sightings : List Sighting) : List (String × Net.Ipv4) :=
  sightings.filterMap Sighting.location?

/-- The questions that sightings lead to, in their order. -/
def questions (sightings : List Sighting) : List Inquiry :=
  sightings.filterMap Sighting.next?

@[simp]
theorem locations_append (first second : List Sighting) :
    locations (first ++ second) = locations first ++ locations second :=
  List.filterMap_append

@[simp]
theorem questions_append (first second : List Sighting) :
    questions (first ++ second) = questions first ++ questions second :=
  List.filterMap_append

namespace Hosts

/-- The hosts known after sightings. -/
def noting (hosts : Hosts) (sightings : List Sighting) : Hosts :=
  sightings.foldl Sighting.noted hosts

@[simp]
theorem noting_append (hosts : Hosts) (first second : List Sighting) :
    hosts.noting (first ++ second) = (hosts.noting first).noting second :=
  List.foldl_append

/-- The hosts are those of the locations, each once and with its first address. -/
structure AreFirst (hosts : Hosts) (locations : List (String × Net.Ipv4)) : Prop where
  nodup : (hosts.map Prod.fst).Nodup
  lookup : ∀ host, hosts.lookup host = locations.lookup host

variable {hosts : Hosts} {known : List (String × Net.Ipv4)}

theorem AreFirst.nil : AreFirst [] [] :=
  ⟨List.nodup_nil, fun _ => rfl⟩

/-- An address is noted for a host that has none, and makes no difference to one that has. -/
theorem AreFirst.note (first : hosts.AreFirst known) (host : String) (address : Net.Ipv4) :
    (hosts.note host address).AreFirst (known ++ [(host, address)]) := by
  cases noted : hosts.lookup host with
  | none =>
      have absent : host ∉ hosts.map Prod.fst := by
        intro member
        rcases List.mem_map.mp member with ⟨entry, isEntry, rfl⟩
        simpa using List.lookup_eq_none_iff.mp noted entry isEntry
      simp only [Hosts.note, noted, Option.isSome_none, Bool.false_eq_true, if_false]
      constructor
      · rw [List.map_append, List.nodup_append_comm]
        exact List.nodup_cons.mpr ⟨absent, first.nodup⟩
      · intro other
        rw [List.lookup_append, List.lookup_append, first.lookup]
  | some earlier =>
      simp only [Hosts.note, noted, Option.isSome_some, if_true]
      constructor
      · exact first.nodup
      · intro other
        rw [List.lookup_append, ← first.lookup]
        by_cases same : other = host
        · rw [same, noted, Option.some_or]
        · have apart : [(host, address)].lookup other = none := by
            simpa [List.lookup_eq_none_iff] using same
          rw [apart, Option.or_none]

theorem AreFirst.noted (first : hosts.AreFirst known) (sighting : Sighting) :
    (sighting.noted hosts).AreFirst (known ++ locations [sighting]) := by
  cases sighting with
  | found | resolved => exact (List.append_nil known).symm ▸ first
  | located host address => exact first.note host address

/-- What is noted of sightings is the first address of every host. -/
theorem AreFirst.noting (first : hosts.AreFirst known) (sightings : List Sighting) :
    (hosts.noting sightings).AreFirst (known ++ locations sightings) := by
  induction sightings generalizing hosts known with
  | nil => simpa [noting, locations] using first
  | cons sighting rest ih =>
      have later := ih (first.noted sighting)
      rwa [List.append_assoc, ← locations_append, List.singleton_append] at later

end Hosts

/-! ## Questions one after another -/

variable {π α : Type} {responder : Responder π}

namespace Responder

/-- The state in which questions leave a responder. -/
def after (responder : Responder π) (inquiries : List Inquiry) (state : π) : π :=
  inquiries.foldl (fun state inquiry => (responder.ask inquiry state).2) state

/-- What a responder replies to questions. -/
def replies (responder : Responder π) : List Inquiry → π → List (Except Failure Unit)
  | [], _ => []
  | inquiry :: rest, state =>
      (responder.ask inquiry state).1 :: replies responder rest (responder.ask inquiry state).2

end Responder

/-- The questions that were put. -/
def asked (marks : List (Mark Activity)) : List Inquiry :=
  (Task.signals marks).filterMap Activity.inquiry?

@[simp]
theorem asked_append (first second : List (Mark Activity)) :
    asked (first ++ second) = asked first ++ asked second := by
  simp [asked]

namespace Collect

/-- The questions that sightings lead to are put one after another. -/
theorem follow_cases {sightings : List Sighting} {hosts : Hosts} {state : π}
    {next : Hosts → π → Task Activity α} {token : Bool} {marks : List (Mark Activity)}
    {last : Task.Run Activity α}
    (course : Course ⟨token, follow responder sightings hosts state next⟩ marks last) :
    Task.Led (next (hosts.noting sightings) (responder.after (questions sightings) state))
      ((questions sightings).map .inquiry) marks last := by
  induction sightings generalizing hosts state token marks with
  | nil => exact .nil course
  | cons sighting rest ih =>
      cases sighting with
      | found | resolved => exact .cons course ih
      | located => exact ih course

end Collect

/-! ## Rounds -/

/-- A round of a collection: what is sighted in it, and how long it waits if that is nothing. -/
structure Round where
  sightings : List Sighting
  pause : Nat := 0

/-- What is done in a round. -/
def Round.activities (round : Round) : List Activity :=
  match round.sightings with
  | [] => [.idle, .pause round.pause]
  | sightings => (questions sightings).map .inquiry

/-- What can be seen of a round.  It begins with a look at the token, which has not been fired. -/
def Round.marks (round : Round) : List (Mark Activity) :=
  .looked false :: round.activities.map .signal

/-- The next round at a responder, with the time that is left of the window and the state of the
responder after it. -/
def Responder.round (responder : Responder π) (pollTimeout window : Nat) (state : π) :
    Round × Nat × π :=
  match responder.poll state with
  | ([], next) =>
      let pause := responder.lasts state (min pollTimeout window)
      (⟨[], pause⟩, window - pause, next)
  | (sightings, next) => (⟨sightings, 0⟩, window, responder.after (questions sightings) next)

/-- Rounds follow one another, each of them begun while the window is open. -/
inductive Rounds (responder : Responder π) (pollTimeout : Nat) :
    Nat × π → List Round → Nat × π → Prop where
  | none (stage : Nat × π) : Rounds responder pollTimeout stage [] stage
  | cons {window : Nat} {state : π} {round : Round} {rounds : List Round} {next last : Nat × π}
      (isOpen : 0 < window) (same : responder.round pollTimeout window state = (round, next))
      (later : Rounds responder pollTimeout next rounds last) :
      Rounds responder pollTimeout (window, state) (round :: rounds) last

/-- All rounds for which a window and the polls leave time, with what is left of the window and the
state of the responder after them. -/
def Responder.rounds (responder : Responder π) (pollTimeout : Nat) :
    Nat → Nat × π → List Round × Nat × π
  | 0, stage => ([], stage)
  | polls + 1, stage =>
      if stage.1 = 0 then ([], stage)
      else
        let (round, next) := responder.round pollTimeout stage.1 stage.2
        let (later, left) := rounds responder pollTimeout polls next
        (round :: later, left)

namespace Rounds

variable {pollTimeout polls : Nat} {stage left : Nat × π} {rounds : List Round}

/-- Rounds that stop only when there is no time for another one are all of them. -/
theorem eq_rounds (ran : Rounds responder pollTimeout stage rounds left)
    (few : rounds.length ≤ polls) (isOver : left.1 = 0 ∨ rounds.length = polls) :
    responder.rounds pollTimeout polls stage = (rounds, left) := by
  induction ran generalizing polls with
  | none stage =>
      cases polls with
      | zero => rfl
      | succ polls =>
          have closed : stage.1 = 0 := isOver.resolve_right nofun
          rw [Responder.rounds, if_pos closed]
  | @cons window state round rounds next last isOpen same _ ih =>
      cases polls with
      | zero => cases few
      | succ polls =>
          have later := ih (Nat.le_of_succ_le_succ few) (isOver.imp_right Nat.succ.inj)
          have unclosed : window ≠ 0 := Nat.ne_of_gt isOpen
          simp only [Responder.rounds, unclosed, if_false, same, later]

end Rounds

/-- All rounds follow one another while the window is open. -/
theorem Responder.rounds_ran (responder : Responder π) (pollTimeout polls : Nat)
    (stage : Nat × π) :
    Rounds responder pollTimeout stage (responder.rounds pollTimeout polls stage).1
      (responder.rounds pollTimeout polls stage).2 := by
  induction polls generalizing stage with
  | zero => exact .none stage
  | succ polls ih =>
      rw [rounds]
      split
      · exact .none stage
      · rename_i isOpen
        exact .cons (Nat.pos_of_ne_zero isOpen) rfl (ih _)

/-- Everything that is sighted in rounds. -/
def sightings (rounds : List Round) : List Sighting :=
  rounds.flatMap Round.sightings

/-- What can be seen of rounds. -/
def roundMarks (rounds : List Round) : List (Mark Activity) :=
  rounds.flatMap Round.marks

@[simp]
theorem sightings_cons (round : Round) (rounds : List Round) :
    sightings (round :: rounds) = round.sightings ++ sightings rounds :=
  rfl

@[simp]
theorem roundMarks_cons (round : Round) (rounds : List Round) :
    roundMarks (round :: rounds) = round.marks ++ roundMarks rounds :=
  rfl

/-- How far polling has come, by what can be seen of it: it is in some round, or it has ended, since
it was cancelled or there was no time left for another round. -/
inductive Polled (responder : Responder π) (pollTimeout polls : Nat) (stage : Nat × π)
    (hosts : Hosts) : List (Mark Activity) → Task.Run Activity Hosts → Prop where
  | going {rounds : List Round} {marks : List (Mark Activity)} {left : Nat × π}
      {last : Task.Run Activity Hosts} (ran : Rounds responder pollTimeout stage rounds left)
      (few : rounds.length ≤ polls) (going : last.task.output? = none)
      (part : Task.ownMarks marks <+: roundMarks rounds) :
      Polled responder pollTimeout polls stage hosts marks last
  | ended {rounds : List Round} {marks : List (Mark Activity)} {left : Nat × π}
      {found after : Bool} (ran : Rounds responder pollTimeout stage rounds left)
      (few : rounds.length ≤ polls)
      (isOver : found = true ∨ left.1 = 0 ∨ rounds.length = polls)
      (shown : Task.ownMarks marks = roundMarks rounds ++ [.looked found])
      (cancelled : found = true → after = true) :
      Polled responder pollTimeout polls stage hosts marks
        ⟨after, .done (hosts.noting (sightings rounds))⟩

namespace Polled

variable {pollTimeout polls window : Nat} {state : π} {hosts : Hosts} {token : Bool}
  {marks : List (Mark Activity)} {last : Task.Run Activity Hosts}

/-- A look at the token is the end of polling. -/
theorem of_done {found : Bool} {before more : List (Mark Activity)}
    (firing : Task.Firing token before found) (isOver : found = true ∨ window = 0 ∨ 0 = polls)
    (course : Course ⟨found, .done hosts⟩ more last) :
    Polled responder pollTimeout polls (window, state) hosts (before ++ .looked found :: more)
      last := by
  rcases course.done_cases with ⟨after, still, rfl⟩
  have shown : Task.ownMarks (before ++ .looked found :: more) = [.looked found] := by
    simp [firing.ownMarks_eq, still.ownMarks_eq]
  exact .ended (.none _) (Nat.zero_le _) isOver shown still.token_mono

variable {round : Round} {next : Nat × π} (isOpen : 0 < window)
  (same : responder.round pollTimeout window state = (round, next))
include isOpen same

/-- Polling is in its first round. -/
theorem within (going : last.task.output? = none) (part : Task.ownMarks marks <+: round.marks) :
    Polled responder pollTimeout (polls + 1) (window, state) hosts marks last := by
  apply Polled.going (.cons isOpen same (.none _)) (Nat.le_add_left 1 polls) going
  simpa [roundMarks] using part

/-- One round comes before the others. -/
theorem cons {lead more : List (Mark Activity)} (shown : Task.ownMarks lead = round.marks)
    (later : Polled responder pollTimeout polls next (hosts.noting round.sightings) more last) :
    Polled responder pollTimeout (polls + 1) (window, state) hosts (lead ++ more) last := by
  cases later with
  | going ran few going part =>
      apply Polled.going (.cons isOpen same ran) (Nat.succ_le_succ few) going
      rw [Task.ownMarks_append, shown, roundMarks_cons]
      exact (List.prefix_append_right_inj _).mpr part
  | ended ran few isOver rest cancelled =>
      have isOver := isOver.imp_right fun isOver => isOver.imp_right (congrArg Nat.succ)
      rw [← Hosts.noting_append, ← sightings_cons]
      apply Polled.ended (.cons isOpen same ran) (Nat.succ_le_succ few) isOver _ cancelled
      rw [Task.ownMarks_append, shown, rest, roundMarks_cons, List.append_assoc]

/-- A round begins with a look at the token and goes through its row. -/
theorem of_led {row : List Activity} {task : Task Activity Hosts} {front : List (Mark Activity)}
    (looked : Task.ownMarks front = [.looked false])
    (shows : round.marks = .looked false :: row.map .signal) (led : Task.Led task row marks last)
    (onward : ∀ {lead : List (Mark Activity)} {after : Bool} {more : List (Mark Activity)},
      Task.ownMarks lead = round.marks → Course ⟨after, task⟩ more last →
        Polled responder pollTimeout (polls + 1) (window, state) hosts (lead ++ more) last) :
    Polled responder pollTimeout (polls + 1) (window, state) hosts (front ++ marks) last := by
  cases led with
  | inside going part =>
      apply within isOpen same going
      rw [Task.ownMarks_append, looked, shows]
      exact List.cons_prefix_cons.mpr ⟨rfl, part⟩
  | through shown rest =>
      rw [← List.append_assoc]
      apply onward _ rest
      rw [Task.ownMarks_append, looked, shown, shows]
      rfl

end Polled

/-- Every course of polling goes in rounds. -/
theorem Collect.polled_of_course {pollTimeout polls window : Nat} {hosts : Hosts} {state : π}
    {token : Bool} {marks : List (Mark Activity)} {last : Task.Run Activity Hosts}
    (course : Course ⟨token, poll responder pollTimeout polls window hosts state⟩ marks last) :
    Polled responder pollTimeout polls (window, state) hosts marks last := by
  induction polls generalizing window hosts state token marks with
  | zero =>
      rw [poll] at course
      rcases course.check_cases with
        ⟨after, firing, rfl⟩ | ⟨before, found, more, firing, rfl, looked⟩
      · exact .going (.none _) (Nat.le_refl 0) rfl (by simp [firing.ownMarks_eq])
      · rw [ite_self] at looked
        exact .of_done firing (.inr (.inr rfl)) looked
  | succ polls ih =>
      rw [poll] at course
      rcases course.check_cases with
        ⟨after, firing, rfl⟩ | ⟨before, found, more, firing, rfl, looked⟩
      · exact .going (.none _) (Nat.zero_le _) rfl (by simp [firing.ownMarks_eq])
      split at looked
      · rename_i isOver
        exact .of_done firing (isOver.imp_right .inl) looked
      · rename_i goesOn
        rcases not_or.mp goesOn with ⟨unfired, isOpen⟩
        obtain rfl : found = false := by simpa using unfired
        have isOpen := Nat.pos_of_ne_zero isOpen
        have front : Task.ownMarks (before ++ [.looked false]) = [.looked false] := by
          simp [firing.ownMarks_eq]
        rw [List.append_cons]
        rcases polled : responder.poll state with ⟨_ | ⟨sighting, rest⟩, next⟩
        · have same : responder.round pollTimeout window state =
              (⟨[], responder.lasts state (min pollTimeout window)⟩,
                window - responder.lasts state (min pollTimeout window), next) := by
            simp [Responder.round, polled]
          simp only [polled] at looked
          apply Polled.of_led isOpen same front rfl (.of_emitAll looked)
          intro lead token more shown held
          rcases held.hold_cases with
            ⟨after, firing, rfl⟩ | ⟨quiet, after, more, firing, rfl, released⟩
          · have whole : Task.ownMarks (lead ++ more) = Task.ownMarks lead := by
              rw [Task.ownMarks_append, firing.ownMarks_eq, List.append_nil]
            exact .within isOpen same rfl (whole.trans shown ▸ List.prefix_rfl)
          · rw [← List.append_assoc]
            apply Polled.cons isOpen same _ (ih released)
            rw [Task.ownMarks_append, shown, firing.ownMarks_eq, List.append_nil]
        · have same : responder.round pollTimeout window state =
              (⟨sighting :: rest, 0⟩, window,
                responder.after (questions (sighting :: rest)) next) := by
            simp [Responder.round, polled]
          simp only [polled] at looked
          apply Polled.of_led isOpen same front rfl (follow_cases looked)
          exact fun shown onward => .cons isOpen same shown (ih onward)

end BridgeFinder.Mdns
