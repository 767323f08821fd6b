import BridgeFinder.Mdns.Table
import BridgeFinder.Proofs.Mdns.Account

/-!
# Collecting from tables

A responder serves tables if it gives every answer that they have to a question, at some later poll
and in whatever order; it may give other sightings as well.  What it owes in the end is what it has
not yet given.  If it owes nothing any more, a collection has sighted exactly what the tables lead
to from the types that were browsed and from the sightings that it did not ask for.
-/

namespace BridgeFinder.Mdns

variable {π : Type} {responder : Responder π} {table : Table} {owes extra : π → List Sighting}
  {types : List String} {unasked seen : List Sighting}

/-! ## Responders that serve tables -/

namespace Table

/-- What the tables give in answer to a question: nothing if they refuse it. -/
def given (table : Table) (inquiry : Inquiry) : List Sighting :=
  match table.answers inquiry with
  | .ok answers => answers
  | .error _ => []

/-- What the tables give in answer to questions. -/
def givenAll (table : Table) (inquiries : List Inquiry) : List Sighting :=
  inquiries.flatMap table.given

/-- What the tables reply to a question. -/
def reply (table : Table) (inquiry : Inquiry) : Except Failure Unit :=
  (table.answers inquiry).map fun _ => ()

@[simp]
theorem givenAll_append (first second : List Inquiry) :
    table.givenAll (first ++ second) = table.givenAll first ++ table.givenAll second :=
  List.flatMap_append

@[simp]
theorem givenAll_cons (inquiry : Inquiry) (rest : List Inquiry) :
    table.givenAll (inquiry :: rest) = table.given inquiry ++ table.givenAll rest :=
  rfl

end Table

/-- A responder serves tables.  In every state there are the answers that it owes, and what the next
poll gives besides answers. -/
structure Serves (responder : Responder π) (table : Table) (owes extra : π → List Sighting) :
    Prop where
  reply : ∀ inquiry state, (responder.ask inquiry state).1 = table.reply inquiry
  ask : ∀ inquiry state,
    (owes (responder.ask inquiry state).2).Perm (owes state ++ table.given inquiry)
  /-- A poll gives some of the answers that are owed.  The others are owed as before. -/
  poll : ∀ state,
    (owes state ++ extra state).Perm ((responder.poll state).1 ++ owes (responder.poll state).2)

namespace Serves

variable (serves : Serves responder table owes extra)
include serves

/-- After questions, their answers are owed as well. -/
theorem owes_after (inquiries : List Inquiry) (state : π) :
    (owes (responder.after inquiries state)).Perm (owes state ++ table.givenAll inquiries) := by
  induction inquiries generalizing state with
  | nil => simp [Responder.after, Table.givenAll]
  | cons inquiry rest ih =>
      rw [Table.givenAll_cons, ← List.append_assoc]
      exact (ih _).trans ((serves.ask inquiry state).append_right _)

theorem replies_eq (inquiries : List Inquiry) (state : π) :
    responder.replies inquiries state = inquiries.map table.reply := by
  induction inquiries generalizing state with
  | nil => rfl
  | cons inquiry rest ih => simp [Responder.replies, serves.reply, ih]

end Serves

/-- The responder of tables serves them.  When no answer is due, it gives a batch. -/
theorem Table.serves (table : Table) :
    Serves table.responder table State.due fun state =>
      match state with
      | ⟨[], batch :: _⟩ => batch
      | _ => [] := by
  constructor
  · intro inquiry state
    simp only [responder, ask, reply]
    cases answered : table.answers inquiry <;> rfl
  · intro inquiry state
    simp only [responder, ask, given]
    cases answered : table.answers inquiry <;> simp
  · rintro ⟨_ | ⟨sighting, due⟩, _ | ⟨batch, batches⟩⟩ <;> simp [responder, poll]

/-! ## What the tables lead to -/

/-- What is announced: the sightings that are not asked for, the services of the types that are
browsed, the hosts of the services that are announced, and the addresses of the hosts on which
announced services run. -/
inductive Table.Announces (table : Table) (types : List String) (unasked : List Sighting) :
    Sighting → Prop where
  | unasked {sighting : Sighting} (seen : sighting ∈ unasked) :
      Announces table types unasked sighting
  | found {serviceType service : String} {services : List String} (browsed : serviceType ∈ types)
      (listed : table.services serviceType = .ok services) (member : service ∈ services) :
      Announces table types unasked (.found serviceType service)
  | resolved {serviceType service host : String} {hosts : List String}
      (found : Announces table types unasked (.found serviceType service))
      (listed : table.hosts service = .ok hosts) (member : host ∈ hosts) :
      Announces table types unasked (.resolved service host)
  | located {service host : String} {address : Net.Ipv4} {addresses : List Net.Ipv4}
      (resolved : Announces table types unasked (.resolved service host))
      (listed : table.addresses host = .ok addresses) (member : address ∈ addresses) :
      Announces table types unasked (.located host address)

namespace Table

theorem mem_given_browse {serviceType : String} {sighting : Sighting} :
    sighting ∈ table.given (.browse serviceType) ↔
      ∃ services, table.services serviceType = .ok services ∧
        ∃ service ∈ services, .found serviceType service = sighting := by
  cases listed : table.services serviceType <;> simp [given, answers, listed, Except.map]

theorem mem_given_resolve {service : String} {sighting : Sighting} :
    sighting ∈ table.given (.resolve service) ↔
      ∃ hosts, table.hosts service = .ok hosts ∧
        ∃ host ∈ hosts, .resolved service host = sighting := by
  cases listed : table.hosts service <;> simp [given, answers, listed, Except.map]

theorem mem_given_query {host : String} {sighting : Sighting} :
    sighting ∈ table.given (.query host) ↔
      ∃ addresses, table.addresses host = .ok addresses ∧
        ∃ address ∈ addresses, .located host address = sighting := by
  cases listed : table.addresses host <;> simp [given, answers, listed, Except.map]

/-- More is announced if more is seen without a question. -/
theorem Announces.mono {more : List Sighting} (part : unasked ⊆ more) {sighting : Sighting}
    (announced : table.Announces types unasked sighting) : table.Announces types more sighting := by
  induction announced with
  | unasked seen => exact .unasked (part seen)
  | found browsed listed member => exact .found browsed listed member
  | resolved _ listed member ih => exact .resolved ih listed member
  | located _ listed member ih => exact .located ih listed member

/-- Answers to the questions that announced sightings lead to are announced. -/
theorem announces_of_mem_given
    (announced : ∀ sighting ∈ seen, table.Announces types unasked sighting) {answer : Sighting}
    (member : answer ∈ table.givenAll (types.map .browse ++ questions seen)) :
    table.Announces types unasked answer := by
  rcases List.mem_flatMap.mp member with ⟨inquiry, put, answers⟩
  rcases List.mem_append.mp put with opening | later
  · rcases List.mem_map.mp opening with ⟨serviceType, browsed, rfl⟩
    rcases mem_given_browse.mp answers with ⟨services, listed, service, isListed, rfl⟩
    exact .found browsed listed isListed
  · rcases List.mem_filterMap.mp later with ⟨sighting, seen, leads⟩
    have announced := announced sighting seen
    cases sighting with
    | found serviceType service =>
        cases leads
        rcases mem_given_resolve.mp answers with ⟨hosts, listed, host, isListed, rfl⟩
        exact .resolved announced listed isListed
    | resolved service host =>
        cases leads
        rcases mem_given_query.mp answers with ⟨addresses, listed, address, isListed, rfl⟩
        exact .located announced listed isListed
    | located => cases leads

end Table

/-! ## Following the tables -/

/-- The tables have been followed: what has been seen is announced, and together with what is owed
it is what they give in answer to the questions that have been put, and what was not asked for. -/
structure Follows (table : Table) (types : List String) (unasked seen owed : List Sighting) :
    Prop where
  balance : (table.givenAll (types.map .browse ++ questions seen) ++ unasked).Perm (seen ++ owed)
  sound : ∀ sighting ∈ seen, table.Announces types unasked sighting

namespace Follows

/-- After the opening nothing has been seen, and the services of the types are owed. -/
theorem opening (serves : Serves responder table owes extra) {start : π} (fresh : owes start = [])
    (types : List String) :
    Follows table types [] [] (owes (responder.after (types.map .browse) start)) := by
  constructor
  · have owed := serves.owes_after (types.map .browse) start
    rw [fresh] at owed
    simpa [questions] using owed.symm
  · nofun

/-- In a round the answers that are polled are followed. -/
theorem round (serves : Serves responder table owes extra) {pollTimeout window : Nat} {state : π}
    {round : Round} {next : Nat × π} (follows : Follows table types unasked seen (owes state))
    (same : responder.round pollTimeout window state = (round, next)) :
    Follows table types (unasked ++ extra state) (seen ++ round.sightings) (owes next.2) := by
  rcases Responder.round_eq same with ⟨polled, after⟩
  have poll := serves.poll state
  have later := serves.owes_after (questions round.sightings) (responder.poll state).2
  rw [← polled] at poll
  rw [← after] at later
  constructor
  · have balance := follows.balance
    simp only [List.perm_iff_count, List.count_append, questions_append,
      Table.givenAll_append] at balance poll later ⊢
    intro sighting
    have balance := balance sighting
    have poll := poll sighting
    have later := later sighting
    omega
  · have before : ∀ sighting ∈ seen, table.Announces types (unasked ++ extra state) sighting :=
      fun sighting member => (follows.sound sighting member).mono (List.subset_append_left _ _)
    intro sighting member
    rcases List.mem_append.mp member with old | new
    · exact before sighting old
    · rcases List.mem_append.mp (poll.mem_iff.mpr (List.mem_append_left _ new)) with owed | besides
      · have asked := follows.balance.mem_iff.mpr (List.mem_append_right _ owed)
        rcases List.mem_append.mp asked with answer | unasked
        · exact Table.announces_of_mem_given before answer
        · exact .unasked (List.mem_append_left _ unasked)
      · exact .unasked (List.mem_append_right _ besides)

end Follows

/-- What polls give besides answers in a number of rounds. -/
def Responder.besides (responder : Responder π) (extra : π → List Sighting) (pollTimeout : Nat) :
    Nat → Nat × π → List Sighting
  | 0, _ => []
  | count + 1, stage =>
      extra stage.2 ++
        besides responder extra pollTimeout count (responder.round pollTimeout stage.1 stage.2).2

namespace Follows

/-- Rounds follow the tables. -/
theorem rounds (serves : Serves responder table owes extra) {pollTimeout : Nat}
    {stage left : Nat × π} {rounds : List Round}
    (ran : Rounds responder pollTimeout stage rounds left)
    (follows : Follows table types unasked seen (owes stage.2)) :
    Follows table types (unasked ++ responder.besides extra pollTimeout rounds.length stage)
      (seen ++ sightings rounds) (owes left.2) := by
  induction ran generalizing unasked seen with
  | none stage => simpa [Responder.besides, sightings] using follows
  | cons _ same _ ih =>
      have later := ih (follows.round serves same)
      rw [List.append_assoc, List.append_assoc, ← sightings_cons] at later
      rwa [List.length_cons, Responder.besides, same]

/-- Where nothing is owed any more, everything that is announced has been seen. -/
theorem seen_iff (follows : Follows table types unasked seen []) (sighting : Sighting) :
    sighting ∈ seen ↔ table.Announces types unasked sighting := by
  constructor
  · exact follows.sound sighting
  · have balance := follows.balance
    rw [List.append_nil] at balance
    -- Answers to a question that was put have been seen.
    have answered {inquiry : Inquiry} {answer : Sighting}
        (put : inquiry ∈ types.map .browse ++ questions seen)
        (given : answer ∈ table.given inquiry) : answer ∈ seen :=
      balance.mem_iff.mp (List.mem_append_left _ (List.mem_flatMap.mpr ⟨inquiry, put, given⟩))
    have asked {sighting : Sighting} {inquiry : Inquiry} (seen' : sighting ∈ seen)
        (leads : sighting.next? = some inquiry) :
        inquiry ∈ types.map .browse ++ questions seen :=
      List.mem_append_right _ (List.mem_filterMap.mpr ⟨sighting, seen', leads⟩)
    intro announced
    induction announced with
    | unasked without => exact balance.mem_iff.mp (List.mem_append_right _ without)
    | found browsed listed member =>
        apply answered (List.mem_append_left _ (List.mem_map_of_mem browsed))
        exact Table.mem_given_browse.mpr ⟨_, listed, _, member, rfl⟩
    | resolved _ listed member ih =>
        apply answered (asked ih rfl)
        exact Table.mem_given_resolve.mpr ⟨_, listed, _, member, rfl⟩
    | located _ listed member ih =>
        apply answered (asked ih rfl)
        exact Table.mem_given_query.mpr ⟨_, listed, _, member, rfl⟩

end Follows

end BridgeFinder.Mdns
