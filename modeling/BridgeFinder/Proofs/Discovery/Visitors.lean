import BridgeFinder.Proofs.Discovery.Staged

/-!
# Searches that come while the slot is taken

Searches that are turned down leave nothing behind but a call that waits to be made.  What a
discovery does depends on the calls that wait only where it makes the oldest of them, and making a
call changes nothing if its callback asks for nothing.  So two discoveries that differ in such
guests among the waiting calls can go on alike: what happens to one happens to the other, and the
guests come between.
-/

namespace BridgeFinder.Discovery

/-- Two lists run together, each in its order. -/
inductive Interleaves {α : Type} : List α → List α → List α → Prop where
  | nil : Interleaves [] [] []
  | left {first second both : List α} (next : α) (rest : Interleaves first second both) :
      Interleaves (next :: first) second (next :: both)
  | right {first second both : List α} (next : α) (rest : Interleaves first second both) :
      Interleaves first (next :: second) (next :: both)

namespace Interleaves

variable {α : Type} {first second both : List α}

theorem same (list : List α) : Interleaves list [] list := by
  induction list with
  | nil => exact .nil
  | cons next rest ih => exact .left next ih

theorem append (front : Interleaves first second both) {third fourth more : List α}
    (back : Interleaves third fourth more) :
    Interleaves (first ++ third) (second ++ fourth) (both ++ more) := by
  induction front with
  | nil => exact back
  | left next rest ih => exact .left next ih
  | right next rest ih => exact .right next ih

theorem one_after_other (first second : List α) :
    Interleaves first second (first ++ second) := by
  induction first with
  | nil =>
      induction second with
      | nil => exact .nil
      | cons next rest ih => exact .right next ih
  | cons next rest ih => exact .left next ih

/-- What comes before the first of the second list is from the first list. -/
theorem split {next : α} {rest : List α} (interleaves : Interleaves first (next :: rest) both) :
    ∃ before after more, first = before ++ after ∧ both = before ++ next :: more ∧
      Interleaves after rest more := by
  generalize whole : next :: rest = second at interleaves
  induction interleaves with
  | nil => cases whole
  | left other _ ih =>
      rcases ih whole with ⟨before, after, more, rfl, rfl, interleaves⟩
      exact ⟨other :: before, after, more, rfl, rfl, interleaves⟩
  | right other interleaves =>
      cases whole
      exact ⟨[], _, _, rfl, rfl, interleaves⟩

end Interleaves

/-! ## Calls that wait -/

/-- The discovery, where other calls wait. -/
def withWaiting (waiting : List Call) (discovery : Discovery) : Discovery :=
  { discovery with dispatcher := { discovery.dispatcher with waiting } }

/-- The calls that are added when a call is posted. -/
def added (call : Call) (discovery : Discovery) : List Call :=
  if discovery.dispatcher.isOpen then [call] else []

section

variable (waiting : List Call)

theorem post_withWaiting (call : Call) (discovery : Discovery) :
    (discovery.withWaiting waiting).post call =
      (discovery.post call).withWaiting (waiting ++ discovery.added call) := by
  by_cases isOpen : discovery.dispatcher.isOpen = true <;>
    simp [post, Dispatcher.post, withWaiting, added, isOpen]

/-- A reporter adds its call, if it has one. -/
theorem hand_withWaiting (reporter : Reporter) (discovery : Discovery) :
    (discovery.withWaiting waiting).hand reporter =
      (discovery.hand reporter).withWaiting
        (waiting ++ reporter.call?.elim [] discovery.added) := by
  unfold hand
  cases reporter.call? with
  | none => simp [withWaiting]
  | some call => exact post_withWaiting waiting call discovery

theorem close_withWaiting (number : Nat) (discovery : Discovery) :
    close number (discovery.withWaiting waiting) =
      (close number discovery).withWaiting waiting := by
  by_cases last : number = discovery.accepted <;> simp [close, withWaiting, last]

namespace Live

/-- The discovery at work, where other calls wait. -/
def withWaiting (waiting : List Call) (live : Live) : Live :=
  { live with discovery := live.discovery.withWaiting waiting }

theorem work_withWaiting (next : Job.Turn) (live : Live) :
    (live.withWaiting waiting).work next =
      ((live.work next).1, (live.work next).2.withWaiting waiting) := by
  rcases live with ⟨⟨registry, identify, accepted, parked, job, session, dispatcher⟩, _⟩
  cases job <;> rfl

theorem take_withWaiting (live : Live) :
    (live.withWaiting waiting).take = live.take.withWaiting waiting := by
  simp only [take, withWaiting, Discovery.withWaiting]
  cases live.discovery.job.bind Job.outcome? with
  | none => rfl
  | some outcome =>
      by_cases taken : live.taken = live.discovery.accepted <;> simp [taken, Discovery.take]

theorem post_withWaiting (place : Nat) (live : Live) :
    ∃ posted, ∀ waiting, (live.withWaiting waiting).post place =
      (live.post place).withWaiting (waiting ++ posted) := by
  simp only [post, withWaiting]
  cases live.finishing[place]? with
  | none => exact ⟨[], by simp⟩
  | some finishing =>
      by_cases announced : finishing.announced = true
      · refine ⟨finishing.reporter.call?.elim [] live.discovery.added, ?_⟩
        simp [announced, hand_withWaiting, close_withWaiting]
      · exact ⟨[], by simp [announced]⟩

theorem drop_withWaiting (live : Live) :
    (live.withWaiting waiting).drop = (live.drop.1, live.drop.2.withWaiting waiting) := by
  simp only [drop, work_withWaiting]
  by_cases used : (live.isDropped || !live.calling.isEmpty) = true <;> simp [withWaiting, used]

theorem shut_withWaiting (live : Live) :
    (live.withWaiting waiting).shut = live.shut.withWaiting waiting := by
  simp only [shut, withWaiting, Discovery.withWaiting, isOver]
  by_cases possible : (live.isDropped && live.finishing.isEmpty &&
      live.discovery.job.all Job.isOver) = true <;>
    simp [possible, Dispatcher.shut]

end Live

end

namespace Staged

/-- The discovery, where other calls wait. -/
def withWaiting (waiting : List Call) (staged : Staged) : Staged :=
  { staged with live := staged.live.withWaiting waiting }

/-- The calls that wait. -/
def waiting (staged : Staged) : List Call :=
  staged.live.discovery.dispatcher.waiting

/-- What is done is the same whatever calls wait, and only adds some to them. -/
def Adds (step : Staged → List Mark × Staged) (staged : Staged) : Prop :=
  ∃ posted, ∀ waiting, step (staged.withWaiting waiting) =
    ((step staged).1, (step staged).2.withWaiting (waiting ++ posted))

theorem Adds.nothing {step : Staged → List Mark × Staged} {staged : Staged}
    (same : ∀ waiting, step (staged.withWaiting waiting) =
      ((step staged).1, (step staged).2.withWaiting waiting)) : Adds step staged := by
  refine ⟨[], ?_⟩
  simpa using same

theorem adds_enter (options : Options) (callback : Callback) (isNested : Bool)
    (staged : Staged) : Adds (enter options callback isNested) staged := by
  cases parked : staged.live.discovery.parked with
  | some other =>
      refine ⟨staged.live.discovery.added ⟨callback, [], .busy⟩, ?_⟩
      intro waiting
      have there : (staged.live.discovery.withWaiting waiting).parked = some other := parked
      simp only [enter, reserve, withWaiting, Live.withWaiting, parked, there,
        post_withWaiting]
  | none =>
      apply Adds.nothing
      intro waiting
      have there : (staged.live.discovery.withWaiting waiting).parked = none := parked
      simp only [enter, reserve, withWaiting, Live.withWaiting, parked, there]
      rfl

theorem adds_publish (methods : List Method) (isNested : Bool) (staged : Staged) :
    Adds (publish methods isNested) staged := by
  cases methods with
  | nil =>
      cases parked : staged.live.discovery.parked with
      | none =>
          apply Adds.nothing
          intro waiting
          have there : (staged.live.discovery.withWaiting waiting).parked = none := parked
          simp only [publish, withdraw, withWaiting, Live.withWaiting, parked, there]
      | some callback =>
          refine ⟨staged.live.discovery.added ⟨callback, [], .missingMethods⟩, ?_⟩
          intro waiting
          have there : (staged.live.discovery.withWaiting waiting).parked = _ := parked
          have posted := post_withWaiting waiting ⟨callback, [], .missingMethods⟩
            { staged.live.discovery with parked := none }
          simp only [publish, withdraw, withWaiting, Live.withWaiting, parked, there]
          exact congrArg (fun discovery =>
            (_, Staged.mk { staged.live with discovery } none)) posted
  | cons method rest => exact .nothing fun _ => rfl

theorem adds_advance (staged : Staged) : Adds advance staged := by
  rcases staged with ⟨live, starting⟩
  cases starting with
  | none => exact .nothing fun _ => rfl
  | some search =>
      rcases search with ⟨stage, isNested⟩
      cases stage with
      | resolved methods => exact adds_publish methods isNested _
      | reserved | published | announced => exact .nothing fun _ => rfl

/-- What the discovery does of itself, it does while a search is starting. -/
theorem adds_lift {step : Live → List Discovery.Mark × Live} {staged : Staged}
    (adds : ∃ posted, ∀ waiting, step (staged.live.withWaiting waiting) =
      ((step staged.live).1, (step staged.live).2.withWaiting (waiting ++ posted))) :
    Adds (fun staged => staged.lift (step staged.live)) staged := by
  rcases adds with ⟨posted, same⟩
  refine ⟨posted, ?_⟩
  intro waiting
  simp only [lift, withWaiting, same]

/-- Every turn only adds to the calls that wait, but for those that make them. -/
theorem adds_turn {next : Turn} (other : next ≠ .live .call) (staged : Staged) :
    Adds (turn next) staged := by
  cases next with
  | advance => exact adds_advance staged
  | searching | request => exact .nothing fun _ => rfl
  | live next =>
      cases next with
      | call => exact absurd rfl other
      | search options callback =>
          cases callback with
          | none => exact .nothing fun _ => rfl
          | some callback =>
              rcases adds_enter options callback false staged with ⟨posted, same⟩
              have kept (waiting : List Call) :
                  (staged.withWaiting waiting).live.isDropped = staged.live.isDropped := rfl
              cases dropped : staged.live.isDropped with
              | true => exact .nothing fun waiting => by simp [turn, kept, dropped]
              | false => exact ⟨posted, fun waiting => by simp [turn, kept, dropped, same]⟩
      | nested =>
          have nested (waiting : List Call) :
              (staged.withWaiting waiting).isNested = staged.isNested := rfl
          have calls (waiting : List Call) :
              (staged.withWaiting waiting).live.calling = staged.live.calling := rfl
          cases goesOn : staged.isNested with
          | true => exact .nothing fun waiting => by simp [turn, nested, goesOn]
          | false =>
              cases calling : staged.live.calling with
              | nil => exact .nothing fun waiting => by simp [turn, nested, calls, goesOn, calling]
              | cons search rest =>
                  rcases search with ⟨options, callback⟩
                  rcases adds_enter options callback true
                    { staged with live := { staged.live with calling := rest } } with
                    ⟨posted, same⟩
                  refine ⟨posted, ?_⟩
                  intro waiting
                  simp only [turn, nested, calls, goesOn, calling]
                  exact same waiting
      | drop =>
          have kept (waiting : List Call) :
              (staged.withWaiting waiting).starting = staged.starting := rfl
          cases starting : staged.starting with
          | some search => exact .nothing fun waiting => by simp [turn, kept, starting]
          | none =>
              have dropped : Adds (fun staged => staged.lift staged.live.drop) staged :=
                adds_lift ⟨[], by simp [Live.drop_withWaiting]⟩
              rcases dropped with ⟨posted, same⟩
              exact ⟨posted, fun waiting => by simpa [turn, kept, starting] using same waiting⟩
      | job next => exact adds_lift ⟨[], by simp [Live.turn, Live.work_withWaiting]⟩
      | take => exact adds_lift ⟨[], by simp [Live.turn, Live.take_withWaiting]⟩
      | announce place =>
          refine adds_lift ⟨[], fun waiting => ?_⟩
          rw [List.append_nil]
          exact Live.announce_change (Discovery.withWaiting waiting) place staged.live
      | shut => exact adds_lift ⟨[], by simp [Live.turn, Live.shut_withWaiting]⟩
      | post place =>
          rcases Live.post_withWaiting place staged.live with ⟨posted, same⟩
          exact adds_lift ⟨posted, by simp [Live.turn, same]⟩

/-- Nothing keeps the oldest call from being made. -/
def IsFree (staged : Staged) : Prop :=
  staged.isNested = false ∧ staged.live.calling = []

variable {staged : Staged}

/-- The discovery, where a callback is being called. -/
def withCalled (call : Call) (staged : Staged) : Staged :=
  { staged with live := { staged.live with
      calling := if staged.live.isDropped then [] else call.callback.searches } }

/-- Where no callback is being called, the oldest call is made. -/
theorem IsFree.turn_call (free : staged.IsFree) (call : Call) (rest : List Call) :
    (staged.withWaiting (call :: rest)).turn (.live .call) =
      ([.seen (.called call)], (staged.withCalled call).withWaiting rest) := by
  rcases staged with ⟨⟨discovery, taken, finishing, calling, isDropped⟩, starting⟩
  rcases free with ⟨nested, rfl⟩
  have nested : (withWaiting (call :: rest) ⟨⟨discovery, taken, finishing, [], isDropped⟩,
      starting⟩).isNested = false := nested
  simp only [turn, nested]
  rfl

/-- Where no call waits, or a callback is being called, no call is made. -/
theorem turn_call_of_not (blocked : staged.IsFree → staged.waiting = []) :
    staged.turn (.live .call) = ([], staged) := by
  rcases staged with ⟨live, starting⟩
  cases nested : isNested ⟨live, starting⟩ with
  | true => simp [turn, nested]
  | false =>
      have none : live.call = ([], live) := by
        unfold Live.call
        split
        · rename_i call dispatcher idle taken
          have empty : live.discovery.dispatcher.waiting = [] := blocked ⟨nested, idle⟩
          simp [Dispatcher.next?, empty] at taken
        · rfl
      simp [turn, nested, lift, none]

/-- A callback that asks for nothing changes nothing but that it does not wait any more. -/
theorem IsFree.turn_call_inert (free : staged.IsFree) {call : Call}
    (inert : call.callback.searches = []) (rest : List Call) :
    (staged.withWaiting (call :: rest)).turn (.live .call) =
      ([.seen (.called call)], staged.withWaiting rest) := by
  rw [free.turn_call, withCalled, inert, ite_self, ← free.2]

/-! ## Guests among the calls that wait -/

/-- The calls are made. -/
def making (calls : List Call) : List Mark :=
  calls.map fun call => .seen (.called call)

/-- Nothing is different but that guests wait among the calls. -/
def Crowds (guests : List Call) (alone crowded : Staged) : Prop :=
  ∃ waiting, crowded = alone.withWaiting waiting ∧ Interleaves alone.waiting guests waiting

/-- Nothing is different but that some guests have been called, and others wait among the calls. -/
structure Matches (called guests : List Call) (alone crowded : List Mark × Staged) : Prop where
  marks : Interleaves alone.1 (making called) crowded.1
  crowds : Crowds guests alone.2 crowded.2

/-- Nothing is different but that guests have been called or wait among the calls. -/
def Meets (guests : List Call) (alone crowded : List Mark × Staged) : Prop :=
  ∃ called waiting, called ++ waiting = guests ∧ Matches called waiting alone crowded

variable {called guests : List Call} {alone crowded : Staged}

theorem Crowds.rest (crowds : Crowds guests alone crowded) :
    Meets guests ([], alone) ([], crowded) :=
  ⟨[], guests, rfl, .nil, crowds⟩

/-- What has been seen before comes before. -/
theorem Matches.after {marks marks' : List Mark} {called' : List Call}
    {first second : List Mark × Staged} (matched : Matches called' guests first second)
    (before : Interleaves marks (making called) marks') :
    Matches (called ++ called') guests (marks ++ first.1, first.2)
      (marks' ++ second.1, second.2) := by
  refine ⟨?_, matched.crowds⟩
  have both := before.append matched.marks
  rwa [making, making, ← List.map_append] at both

/-- The guests that wait may be called later. -/
theorem Matches.meets {first second third fourth : List Mark × Staged}
    (front : Matches called guests first second) (back : Meets guests third fourth) :
    Meets (called ++ guests) (first.1 ++ third.1, third.2) (second.1 ++ fourth.1, fourth.2) := by
  rcases back with ⟨called', waiting, rfl, back⟩
  exact ⟨called ++ called', waiting, List.append_assoc _ _ _, back.after front.marks⟩

/-- The calls that are added are the same with guests and without. -/
theorem Adds.waiting_eq {step : Staged → List Mark × Staged} {posted : List Call}
    (same : ∀ waiting, step (staged.withWaiting waiting) =
      ((step staged).1, (step staged).2.withWaiting (waiting ++ posted))) :
    (step staged).2.waiting = staged.waiting ++ posted :=
  congrArg (fun after => after.2.waiting) (same staged.waiting)

/-- What only adds calls does the same with guests and without. -/
theorem Crowds.step (crowds : Crowds guests alone crowded) {step : Staged → List Mark × Staged}
    (adds : Adds step alone) : Matches [] guests (step alone) (step crowded) := by
  rcases crowds with ⟨waiting, rfl, interleaves⟩
  rcases adds with ⟨posted, same⟩
  rw [same]
  refine ⟨.same _, waiting ++ posted, rfl, ?_⟩
  rw [Adds.waiting_eq same]
  simpa using interleaves.append (.same posted)

theorem workBy_one (next : Turn) (staged : Staged) : staged.workBy [next] = staged.turn next := by
  simp [workBy, play_cons]

/-- Whatever turn is taken with guests, the same one is taken without them, or a guest is
called. -/
theorem Crowds.turn_crowded (crowds : Crowds guests alone crowded)
    (inert : ∀ guest ∈ guests, guest.callback.searches = []) (next : Turn) :
    ∃ turns, Meets guests (alone.workBy turns) (crowded.turn next) := by
  by_cases call : next = .live .call
  · subst call
    rcases crowds with ⟨waiting, rfl, interleaves⟩
    by_cases free : alone.IsFree
    · generalize whole : alone.waiting = first at interleaves
      -- the oldest call is one of those that wait in any case, or a guest's
      cases interleaves with
      | nil =>
          have none : (alone.withWaiting []).turn (.live .call) = ([], alone.withWaiting []) :=
            turn_call_of_not fun _ => rfl
          rw [none]
          exact ⟨[], Crowds.rest ⟨[], rfl, whole ▸ .nil⟩⟩
      | @left first' _ waiting' next rest =>
          have here : alone = alone.withWaiting (next :: first') := by
            rw [← whole]
            rfl
          refine ⟨[.live .call], [], guests, rfl, ?_⟩
          rw [free.turn_call, workBy_one, here, free.turn_call]
          exact ⟨.same _, waiting', rfl, rest⟩
      | @right _ guests' waiting' next rest =>
          refine ⟨[], [next], guests', rfl, ?_⟩
          rw [free.turn_call_inert (inert next List.mem_cons_self)]
          exact ⟨.right _ .nil, waiting', rfl, whole ▸ rest⟩
    · have blocked : (alone.withWaiting waiting).turn (.live .call) =
          ([], alone.withWaiting waiting) := turn_call_of_not fun free' => absurd free' free
      rw [blocked]
      exact ⟨[], Crowds.rest ⟨waiting, rfl, interleaves⟩⟩
  · refine ⟨[next], [], guests, rfl, ?_⟩
    rw [workBy_one]
    exact crowds.step (adds_turn call alone)

/-- A call is made with guests, too, after the guests that wait before it. -/
theorem IsFree.exists_call (free : staged.IsFree) {call : Call} {first rest waiting : List Call}
    (whole : first = call :: rest) (interleaves : Interleaves first guests waiting)
    (inert : ∀ guest ∈ guests, guest.callback.searches = []) :
    ∃ turns, Meets guests ((staged.withWaiting first).turn (.live .call))
      ((staged.withWaiting waiting).workBy turns) := by
  induction interleaves with
  | nil => cases whole
  | @left first' guests' waiting' next interleaves _ =>
      refine ⟨[.live .call], [], guests', rfl, ?_⟩
      rw [workBy_one, free.turn_call, free.turn_call]
      exact ⟨.same _, waiting', rfl, interleaves⟩
  | right guest interleaves ih =>
      rcases ih whole fun other member => inert other (List.mem_cons_of_mem guest member) with
        ⟨turns, called, guests'', rfl, found⟩
      refine ⟨.live .call :: turns, guest :: called, guests'', rfl, ?_⟩
      rw [workBy, play_cons, free.turn_call_inert (inert guest List.mem_cons_self)]
      exact ⟨.right _ found.marks, found.crowds⟩

/-- Whatever turn is taken without guests, the same one is taken with them. -/
theorem Crowds.turn_alone (crowds : Crowds guests alone crowded)
    (inert : ∀ guest ∈ guests, guest.callback.searches = []) (next : Turn) :
    ∃ turns, Meets guests (alone.turn next) (crowded.workBy turns) := by
  by_cases call : next = .live .call
  · subst call
    by_cases blocked : alone.IsFree → alone.waiting = []
    · rw [turn_call_of_not blocked]
      exact ⟨[], crowds.rest⟩
    · rw [Classical.not_imp] at blocked
      rcases List.exists_cons_of_ne_nil blocked.2 with ⟨call, rest, whole⟩
      rcases crowds with ⟨waiting, rfl, interleaves⟩
      exact blocked.1.exists_call whole interleaves inert
  · refine ⟨[next], [], guests, rfl, ?_⟩
    rw [workBy_one]
    exact crowds.step (adds_turn call alone)

/-- Whatever happens with guests, it happens without them. -/
theorem Crowds.workBy_crowded (crowds : Crowds guests alone crowded)
    (inert : ∀ guest ∈ guests, guest.callback.searches = []) (turns' : List Turn) :
    ∃ turns, Meets guests (alone.workBy turns) (crowded.workBy turns') := by
  induction turns' generalizing guests alone crowded with
  | nil => exact ⟨[], crowds.rest⟩
  | cons next rest ih =>
      rcases crowds.turn_crowded inert next with ⟨turns, called, guests', rfl, matched⟩
      rcases ih matched.crowds fun guest member => inert guest (List.mem_append_right _ member) with
        ⟨more, later⟩
      apply Exists.intro (turns ++ more)
      rw [workBy, play_append]
      exact matched.meets later

/-- Whatever happens without guests, it happens with them. -/
theorem Crowds.workBy_alone (crowds : Crowds guests alone crowded)
    (inert : ∀ guest ∈ guests, guest.callback.searches = []) (turns : List Turn) :
    ∃ turns', Meets guests (alone.workBy turns) (crowded.workBy turns') := by
  induction turns generalizing guests alone crowded with
  | nil => exact ⟨[], crowds.rest⟩
  | cons next rest ih =>
      rcases crowds.turn_alone inert next with ⟨turns', called, guests', rfl, matched⟩
      rcases ih matched.crowds fun guest member => inert guest (List.mem_append_right _ member) with
        ⟨more, later⟩
      apply Exists.intro (turns' ++ more)
      rw [workBy, workBy, play_append]
      exact matched.meets later

/-! ## Every guest is called -/

/-- What is left to do of a section of a search. -/
def Stage.left : Stage → Nat
  | .reserved _ => 4
  | .resolved _ => 3
  | .published => 2
  | .announced => 1

/-- What is left to do until the next call can be made. -/
def chores (staged : Staged) : Nat :=
  5 * staged.live.calling.length +
    (staged.starting.map fun search =>
      if search.isNested then Stage.left search.stage else 0).getD 0

/-- The search that a callback has asked for goes on. -/
theorem chores_advance (nested : staged.isNested = true) :
    staged.advance.2.chores < staged.chores := by
  rcases staged with ⟨live, starting⟩
  cases starting with
  | none => cases nested
  | some search =>
      rcases search with ⟨stage, isNested⟩
      obtain rfl : isNested = true := nested
      cases stage with
      | reserved options => simp [advance, chores, Stage.left]
      | resolved methods =>
          cases methods <;> simp [advance, publish, chores, Stage.left]
      | published => simp [advance, chores, Stage.left]
      | announced => simp [advance, chores, Stage.left]

/-- A callback asks for its next search. -/
theorem chores_nested (done : staged.isNested = false) (busy : staged.live.calling ≠ []) :
    (staged.turn (.live .nested)).2.chores < staged.chores := by
  rcases staged with ⟨⟨discovery, taken, finishing, calling, isDropped⟩, starting⟩
  cases calling with
  | nil => exact absurd rfl busy
  | cons search rest =>
      rcases search with ⟨options, callback⟩
      simp only [turn, done, enter, reserve]
      cases discovery.parked with
      | some other => simp [chores]
      | none =>
          simp only [chores, Option.map_some, if_true, Option.getD_some, Stage.left,
            List.length_cons]
          omega

/-- Before long the next call can be made. -/
theorem exists_isFree (staged : Staged) :
    ∃ turns, (∀ next ∈ turns, next.isOwn = true ∧ next ≠ .live .call) ∧
      (staged.workBy turns).2.IsFree := by
  induction chores : staged.chores using Nat.strongRecOn generalizing staged with
  | _ count ih =>
  have goOn (next : Turn) (own : next.isOwn = true) (other : next ≠ .live .call)
      (less : (staged.turn next).2.chores < staged.chores) :
      ∃ turns, (∀ next ∈ turns, next.isOwn = true ∧ next ≠ .live .call) ∧
        (staged.workBy turns).2.IsFree := by
    rcases ih _ (chores ▸ less) (staged.turn next).2 rfl with ⟨turns, all, free⟩
    refine ⟨next :: turns, ?_, free⟩
    intro other' member
    rcases List.mem_cons.mp member with rfl | later
    · exact ⟨own, other⟩
    · exact all other' later
  cases nested : staged.isNested with
  | true => exact goOn .advance rfl nofun (chores_advance nested)
  | false =>
      by_cases busy : staged.live.calling = []
      · exact ⟨[], nofun, nested, busy⟩
      · exact goOn (.live .nested) rfl nofun (chores_nested nested busy)

/-- Turns that make no calls only add some to those that wait. -/
theorem adds_workBy {turns : List Turn} (others : ∀ next ∈ turns, next ≠ .live .call)
    (staged : Staged) : Adds (workBy turns) staged := by
  induction turns generalizing staged with
  | nil => exact .nothing fun _ => rfl
  | cons next rest ih =>
      rcases adds_turn (others next List.mem_cons_self) staged with ⟨posted, first⟩
      rcases ih (fun other member => others other (List.mem_cons_of_mem next member))
        (staged.turn next).2 with ⟨more, later⟩
      refine ⟨posted ++ more, ?_⟩
      intro waiting
      simp only [workBy, play_cons] at later ⊢
      rw [first, later, List.append_assoc]

/-- Before long the next call can be made, and until then calls are only added, with guests and
without. -/
theorem exists_quiet (alone : Staged) :
    ∃ quiet marks free posted, (∀ next ∈ quiet, next.isOwn = true) ∧
      alone.workBy quiet = (marks, free) ∧ free.IsFree ∧
      free.waiting = alone.waiting ++ posted ∧
      ∀ waiting, (alone.withWaiting waiting).workBy quiet =
        (marks, free.withWaiting (waiting ++ posted)) := by
  rcases alone.exists_isFree with ⟨quiet, all, free⟩
  rcases adds_workBy (fun next member => (all next member).2) alone with ⟨posted, same⟩
  exact ⟨quiet, _, _, posted, fun next member => (all next member).1, rfl, free,
    Adds.waiting_eq same, same⟩

/-- A guest is called before long. -/
theorem exists_called {guest : Call} (inert : guest.callback.searches = [])
    {before after more : List Call} (whole : alone.waiting = before ++ after)
    (interleaves : Interleaves after guests more) :
    ∃ turns turns', (∀ next ∈ turns', next.isOwn = true) ∧
      Matches [guest] guests (alone.workBy turns)
        ((alone.withWaiting (before ++ guest :: more)).workBy turns') := by
  induction before generalizing alone after more with
  | nil =>
      rcases alone.exists_quiet with ⟨quiet, marks, there, posted, own, quieted, free, waits, same⟩
      refine ⟨quiet, quiet ++ [.live .call], ?_, ?_⟩
      · simpa [or_imp, forall_and, Turn.isOwn, Discovery.Turn.isOwn] using own
      · simp only [workBy] at quieted same ⊢
        rw [play_append, quieted, same, List.nil_append, List.cons_append, play_cons, play_nil,
          free.turn_call_inert inert]
        refine ⟨.one_after_other _ _, more ++ posted, rfl, ?_⟩
        rw [waits, whole]
        simpa using interleaves.append (.same posted)
  | cons call before ih =>
      rcases alone.exists_quiet with ⟨quiet, marks, there, posted, own, quieted, free, waits, same⟩
      -- both make the call that comes first
      let alone' := (there.withCalled call).withWaiting (before ++ (after ++ posted))
      have called : there.turn (.live .call) = ([.seen (.called call)], alone') := by
        have here : there = there.withWaiting (call :: (before ++ (after ++ posted))) := by
          rw [← List.append_assoc, ← List.cons_append, ← List.cons_append, ← whole, ← waits]
          rfl
        rw [here]
        exact free.turn_call call _
      have interleaves' : Interleaves (after ++ posted) guests (more ++ posted) := by
        simpa using interleaves.append (.same posted)
      have waits' : alone'.waiting = before ++ (after ++ posted) := rfl
      rcases ih waits' interleaves' with ⟨turns, turns', own', matched⟩
      refine ⟨quiet ++ .live .call :: turns, quiet ++ .live .call :: turns', ?_, ?_⟩
      · simpa [or_imp, forall_and, Turn.isOwn, Discovery.Turn.isOwn] using ⟨own, own'⟩
      · simp only [workBy] at quieted same ⊢
        rw [play_append, play_append, quieted, same, List.cons_append, List.cons_append, play_cons,
          play_cons, called, free.turn_call, List.append_assoc, List.cons_append]
        have sofar : Interleaves (marks ++ [.seen (.called call)]) (making [])
            (marks ++ [.seen (.called call)]) := .same _
        have both := matched.after sofar
        rw [List.append_assoc, List.append_assoc] at both
        exact both

/-- All guests are called before long. -/
theorem Crowds.exists_all_called (crowds : Crowds guests alone crowded)
    (inert : ∀ guest ∈ guests, guest.callback.searches = []) :
    ∃ turns turns', (∀ next ∈ turns', next.isOwn = true) ∧
      Matches guests [] (alone.workBy turns) (crowded.workBy turns') := by
  induction guests generalizing alone crowded with
  | nil => exact ⟨[], [], nofun, .nil, crowds⟩
  | cons guest guests ih =>
      rcases crowds with ⟨waiting, rfl, interleaves⟩
      rcases interleaves.split with ⟨before, after, more, whole, rfl, rest⟩
      rcases exists_called (inert guest List.mem_cons_self) whole rest with
        ⟨turns, turns', own, matched⟩
      rcases ih matched.crowds fun other member => inert other (List.mem_cons_of_mem guest member)
        with ⟨later, later', own', others⟩
      refine ⟨turns ++ later, turns' ++ later', ?_, ?_⟩
      · intro next member
        exact (List.mem_append.mp member).elim (own next) (own' next)
      · rw [workBy, workBy, play_append, play_append]
        exact others.after matched.marks

end Staged

/-! ## Visitors -/

/-- A search that is asked for with a callback that does nothing. -/
structure Visitor where
  options : Options
  /-- The name of the callback. -/
  name : String

namespace Visitor

/-- The callback. -/
def callback (visitor : Visitor) : Callback :=
  .mk visitor.name []

/-- The search is asked for. -/
def visit (visitor : Visitor) : Staged.Turn :=
  .live (.search visitor.options (some visitor.callback))

/-- The search is turned down. -/
def declined (visitor : Visitor) : Staged.Mark :=
  .seen (.asked ⟨visitor.callback, .busy⟩)

/-- The callback is called. -/
def call (visitor : Visitor) : Call :=
  ⟨visitor.callback, [], .busy⟩

end Visitor

namespace Staged

/-- What comes of visitors. -/
structure Unseen (visitors : List Visitor) (alone visited : Staged) : Prop where
  /-- Whatever happens without the visitors, the same happens with them, but for their calls. -/
  same : ∀ turns, ∃ turns',
    Meets (visitors.map Visitor.call) (alone.workBy turns) (visited.workBy turns')
  /-- Nothing else happens with them. -/
  only : ∀ turns', ∃ turns,
    Meets (visitors.map Visitor.call) (alone.workBy turns) (visited.workBy turns')
  /-- Whatever has happened, by itself the discovery comes to where each of them has been called
  once. -/
  called : ∀ turns', ∃ turns more, (∀ next ∈ more, next.isOwn = true) ∧
    Matches (visitors.map Visitor.call) [] (alone.workBy turns) (visited.workBy (turns' ++ more))

/-- While the slot is taken, visitors are turned down and wait to be called. -/
theorem workBy_visits {alone : Staged} {callback : Callback}
    (parked : alone.live.discovery.parked = some callback)
    (present : alone.live.isDropped = false)
    (isOpen : alone.live.discovery.dispatcher.isOpen = true) (visitors : List Visitor) :
    alone.workBy (visitors.map Visitor.visit) =
      (visitors.map Visitor.declined,
        alone.withWaiting (alone.waiting ++ visitors.map Visitor.call)) := by
  induction visitors generalizing alone with
  | nil => simp [workBy, waiting, withWaiting, Live.withWaiting, Discovery.withWaiting]
  | cons visitor rest ih =>
      have first : alone.turn visitor.visit =
          ([visitor.declined], alone.withWaiting (alone.waiting ++ [visitor.call])) := by
        simp [turn, Visitor.visit, present, enter, reserve, parked, post, Dispatcher.post, isOpen,
          withWaiting, Live.withWaiting, Discovery.withWaiting, waiting, Visitor.declined,
          Visitor.call]
      have later : (alone.withWaiting (alone.waiting ++ [visitor.call])).workBy
          (rest.map Visitor.visit) = (rest.map Visitor.declined,
            alone.withWaiting (alone.waiting ++ [visitor.call] ++ rest.map Visitor.call)) :=
        ih parked present isOpen
      rw [workBy] at later ⊢
      rw [List.map_cons, play_cons, first, later, List.append_assoc]
      rfl

/-- Visitors who come while the callback of a search is parked make no difference but that each
of them is called once. -/
theorem visitors_unseen (registry : Registry) (identify : Nat → Session) (before : List Turn)
    (visitors : List Visitor)
    (parked : ((fresh registry identify).workBy before).2.live.discovery.parked.isSome = true)
    (present : ((fresh registry identify).workBy before).2.live.isDropped = false) :
    let reached := (fresh registry identify).workBy before
    let visits := reached.2.workBy (visitors.map Visitor.visit)
    visits.1 = visitors.map Visitor.declined ∧ Unseen visitors reached.2 visits.2 := by
  intro reached visits
  have start : Holds (seen []) (fresh registry identify) := .fresh registry identify
  have holds : Holds (seen reached.1) reached.2 := start.workBy before
  rcases Option.isSome_iff_exists.mp parked with ⟨callback, parked⟩
  have visited : visits = _ :=
    workBy_visits parked present (holds.isOpen present) visitors
  have inert : ∀ guest ∈ visitors.map Visitor.call, guest.callback.searches = [] := by
    simp [Visitor.call, Visitor.callback, Callback.searches]
  have crowds : Crowds (visitors.map Visitor.call) reached.2 visits.2 := by
    rw [visited]
    exact ⟨_, rfl, .one_after_other _ _⟩
  constructor
  · rw [visited]
  · constructor
    · exact crowds.workBy_alone inert
    · exact crowds.workBy_crowded inert
    · intro turns'
      rcases crowds.workBy_crowded inert turns' with ⟨turns, called, waiting, split, matched⟩
      rw [← split] at inert ⊢
      rcases matched.crowds.exists_all_called fun guest member =>
        inert guest (List.mem_append_right _ member) with ⟨later, more, own, all⟩
      refine ⟨turns ++ later, more, own, ?_⟩
      rw [workBy, workBy, play_append, play_append]
      exact all.after matched.marks

/-- Two visitors who come while a method hangs, and one of them asks for no method at all. -/
theorem visitors_unseen_hanging :
    let reached := (fresh hanging fun _ => default).workBy
      [.live (.search .default (some (.mk "first" []))), .advance, .advance, .advance, .advance,
        .live (.job (.go 0))]
    let visitors : List Visitor := [⟨.default, "second"⟩, ⟨.empty, "third"⟩]
    let visits := reached.2.workBy (visitors.map Visitor.visit)
    reached.2.live.discovery.parked.isSome = true ∧ reached.2.live.isDropped = false ∧
      visits.1 = visitors.map Visitor.declined ∧ Unseen visitors reached.2 visits.2 :=
  ⟨by decide, by decide, visitors_unseen hanging (fun _ => default) _ _ (by decide) (by decide)⟩

end Staged

end BridgeFinder.Discovery
