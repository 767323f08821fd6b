import BridgeFinder.Discovery.Staged
import BridgeFinder.Proofs.Discovery.Orderly
import BridgeFinder.Proofs.Discovery.Stands

/-!
# How a discovery stands whose search is starting

As long as its job has not been published, a search that is starting changes nothing but that the
slot is taken: the discovery stands as if the slot were free.  From then on the discovery stands as
if the job had been launched at once.  Other searches do not come into this: they are turned down.
-/

namespace BridgeFinder.Discovery

/-- A registry whose only method hangs until it is cancelled. -/
def hanging : Registry :=
  Registry.empty.register .nupnp fun _ => some ⟨.nupnp, .searches (.stall (.done none))⟩

/-- The job of the search has been published. -/
def Stage.isPublished : Stage → Bool
  | reserved _ | resolved _ => false
  | published | announced => true

/-- The turn leaves the slot as it is, whatever it holds. -/
def Turn.leavesSlot : Turn → Bool
  | job _ | announce _ | post _ | call => true
  | search .. | take | nested | drop | shut => false

/-- The turn leaves the slot as it is, and the job of the search that was accepted last, too. -/
def Turn.leavesJob : Turn → Bool
  | announce _ | post _ | call => true
  | search .. | job _ | take | nested | drop | shut => false

namespace Live

variable {live : Live} {parked : Option Callback}
  {job : Option (Job Activity (List Bridge × Runner))}

/-- The discovery with another callback parked. -/
def withSlot (parked : Option Callback) (live : Live) : Live :=
  { live with discovery := { live.discovery with parked } }

/-- The discovery with another job. -/
def withJob (job : Option (Job Activity (List Bridge × Runner))) (live : Live) : Live :=
  { live with discovery := { live.discovery with job } }

theorem hand_withSlot (reporter : Reporter) (discovery : Discovery) :
    { discovery with parked }.hand reporter = { discovery.hand reporter with parked } := by
  unfold hand
  cases reporter.call? <;> rfl

theorem hand_withJob (reporter : Reporter) (discovery : Discovery) :
    { discovery with job }.hand reporter = { discovery.hand reporter with job } := by
  unfold hand
  cases reporter.call? <;> rfl

theorem work_withSlot (next : Job.Turn) (live : Live) :
    (live.withSlot parked).work next =
      ((live.work next).1, (live.work next).2.withSlot parked) := by
  rcases live with ⟨⟨registry, identify, accepted, before, job, session, dispatcher⟩, _⟩
  cases job <;> rfl

/-- Announcing an outcome has nothing to do with the discovery itself. -/
theorem announce_change (change : Discovery → Discovery) (place : Nat) (live : Live) :
    let announced := live.announce place
    { live with discovery := change live.discovery }.announce place =
      (announced.1, { announced.2 with discovery := change announced.2.discovery }) := by
  simp only [announce]
  cases live.finishing[place]? with
  | none => rfl
  | some finishing => by_cases announced : finishing.announced = true <;> simp [announced]

theorem post_withSlot (place : Nat) (live : Live) :
    (live.withSlot parked).post place = (live.post place).withSlot parked := by
  simp only [post, withSlot]
  cases live.finishing[place]? with
  | none => rfl
  | some finishing =>
      by_cases announced : finishing.announced = true
      · simp only [announced, if_true, hand_withSlot, close]
        split <;> rfl
      · simp [announced]

/-- Outcomes of earlier searches do not concern the job. -/
theorem post_withJob (place : Nat) (live : Live)
    (earlier : ∀ number ∈ live.finishing.map Finishing.number, number ≠ live.discovery.accepted) :
    (live.withJob job).post place = (live.post place).withJob job := by
  simp only [post, withJob]
  cases found : live.finishing[place]? with
  | none => rfl
  | some finishing =>
      by_cases announced : finishing.announced = true
      · have other := earlier _ (List.mem_map_of_mem (List.mem_of_getElem? found))
        rcases exists_hand_eq finishing.reporter live.discovery with ⟨waiting, handed⟩
        simp [announced, hand_withJob, handed, close, other]
      · simp [announced]

theorem call_withSlot (live : Live) :
    (live.withSlot parked).call = (live.call.1, live.call.2.withSlot parked) := by
  simp only [call, withSlot]
  split <;> rfl

theorem call_withJob (live : Live) :
    (live.withJob job).call = (live.call.1, live.call.2.withJob job) := by
  simp only [call, withJob]
  split <;> rfl

theorem turn_withSlot {next : Turn} (leaves : next.leavesSlot = true) (live : Live) :
    (live.withSlot parked).turn next =
      ((live.turn next).1, (live.turn next).2.withSlot parked) := by
  cases next with
  | job next => exact work_withSlot next live
  | announce place => exact announce_change (fun discovery => { discovery with parked }) place live
  | post place => exact congrArg (Prod.mk []) (post_withSlot place live)
  | call => exact call_withSlot live
  | search | take | nested | drop | shut => cases leaves

/-- The callback that is parked stays where it is. -/
theorem parked_turn {next : Turn} (leaves : next.leavesSlot = true) (live : Live) :
    (live.turn next).2.discovery.parked = live.discovery.parked := by
  have same : (live.withSlot live.discovery.parked).turn next = _ := turn_withSlot leaves live
  exact congrArg (fun step => step.2.discovery.parked) same

theorem turn_withJob {next : Turn} (leaves : next.leavesJob = true) (live : Live)
    (earlier : ∀ number ∈ live.finishing.map Finishing.number, number ≠ live.discovery.accepted) :
    (live.withJob job).turn next = ((live.turn next).1, (live.turn next).2.withJob job) := by
  cases next with
  | announce place => exact announce_change (fun discovery => { discovery with job }) place live
  | post place => exact congrArg (Prod.mk []) (post_withJob place live earlier)
  | call => exact call_withJob live
  | search | job | take | nested | drop | shut => cases leaves

/-- The job stays as it is. -/
theorem job_turn {next : Turn} (leaves : next.leavesJob = true) (live : Live)
    (earlier : ∀ number ∈ live.finishing.map Finishing.number, number ≠ live.discovery.accepted) :
    (live.turn next).2.discovery.job = live.discovery.job := by
  have same : (live.withJob live.discovery.job).turn next = _ := turn_withJob leaves live earlier
  exact congrArg (fun step => step.2.discovery.job) same

/-- An outcome that has been taken is not taken again. -/
theorem take_of_taken (taken : live.taken = live.discovery.accepted) : live.take = live := by
  unfold take
  split
  · rfl
  · exact if_pos taken

/-- Only the dispatcher of a discovery that has been dropped is shut down. -/
theorem shut_of_present (present : live.isDropped = false) : live.shut = live := by
  simp [shut, present]

theorem leavesSlot_of_leavesJob {next : Turn} (leaves : next.leavesJob = true) :
    next.leavesSlot = true := by
  cases next with
  | announce | post | call => rfl
  | search | job | take | nested | drop | shut => cases leaves

/-- Only dropping a discovery drops it. -/
theorem isDropped_turn {next : Turn} (other : next ≠ .drop) (live : Live) :
    (live.turn next).2.isDropped = live.isDropped := by
  cases next with
  | drop => exact absurd rfl other
  | search options callback =>
      simp only [turn]
      split <;> rfl
  | job next =>
      simp only [turn, work]
      split <;> rfl
  | take =>
      simp only [turn, take]
      split
      · rfl
      · split <;> rfl
  | announce place =>
      simp only [turn, announce]
      split
      · rfl
      · split <;> rfl
  | post place =>
      simp only [turn, post]
      split
      · rfl
      · split <;> rfl
  | call =>
      simp only [turn, call]
      split <;> rfl
  | nested =>
      simp only [turn, nested]
      split <;> rfl
  | shut =>
      simp only [turn, shut]
      split <;> rfl

end Live

/-- The search that stands was accepted after the last one whose outcome has been taken. -/
theorem Engaged.last {marks : List Mark} {live : Live} {ask : Ask}
    (engaged : Engaged marks live (some ask)) :
    live.discovery.accepted = live.taken + 1 := by
  cases engaged with
  | standing callback job_eq follows cancelled going number => exact number

/-- A turn that leaves the slot as it is settles nothing. -/
theorem Stands.leaves {marks : List Mark} {live : Live} {settled : List (Ask × Call)}
    {standing : Option Ask} (stands : Stands marks live settled standing) {next : Turn}
    (leaves : next.leavesSlot = true) :
    Stands (marks ++ (live.turn next).1) (live.turn next).2 settled standing := by
  cases next with
  | job next => exact stands.work next
  | announce place => exact stands.announce place
  | post place => simpa [Live.turn] using stands.post place
  | call => exact stands.call
  | search | take | nested | drop | shut => cases leaves

namespace Staged

/-- What can be seen in any case. -/
def seen (marks : List Mark) : List Discovery.Mark :=
  marks.filterMap Mark.seen?

@[simp]
theorem seen_nil : seen [] = [] :=
  rfl

@[simp]
theorem seen_cons_seen (mark : Discovery.Mark) (marks : List Mark) :
    seen (.seen mark :: marks) = mark :: seen marks :=
  rfl

@[simp]
theorem seen_cons_made (methods : List Method) (marks : List Mark) :
    seen (.made methods :: marks) = seen marks :=
  rfl

@[simp]
theorem seen_map (marks : List Discovery.Mark) : seen (marks.map .seen) = marks := by
  simp [seen, Mark.seen?, Function.comp_def]

theorem seen_append (first second : List Mark) :
    seen (first ++ second) = seen first ++ seen second :=
  List.filterMap_append

/-- How a discovery stands, whether or not a search is starting. -/
inductive Holds (marks : List Discovery.Mark) (staged : Staged) : Prop where
  /-- No search is starting. -/
  | idle {settled : List (Ask × Call)} {standing : Option Ask} (starting : staged.starting = none)
      (stands : Stands marks staged.live settled standing)
  /-- A search has reserved the slot, and its job has not been published. -/
  | early {settled : List (Ask × Call)} {search : Starting} {callback : Callback}
      (starting : staged.starting = some search) (stage : search.stage.isPublished = false)
      (present : staged.live.isDropped = false)
      (parked : staged.live.discovery.parked = some callback)
      (stands : Stands marks (staged.live.withSlot none) settled none)
  /-- The job of a search has been published, and it has not been launched. -/
  | late {settled : List (Ask × Call)} {search : Starting} {ask : Ask}
      {job : Job Activity (List Bridge × Runner)}
      (starting : staged.starting = some search) (stage : search.stage.isPublished = true)
      (present : staged.live.isDropped = false)
      (published : staged.live.discovery.job = some job) (new : ∃ task, job = .new task)
      (stands : Stands marks (staged.live.withJob (some job.run.1)) settled (some ask))

/-- A search that nothing comes between is asked for in one go. -/
theorem workBy_sections (staged : Staged) (idle : staged.starting = none)
    (present : staged.live.isDropped = false) (options : Options) (callback : Callback) :
    let work := staged.workBy
      [.live (.search options (some callback)), .advance, .advance, .advance, .advance]
    seen work.1 = (staged.live.ask options (some callback)).1 ∧
      work.2 = { staged with live := (staged.live.ask options (some callback)).2 } := by
  rcases staged with ⟨⟨⟨registry, identify, accepted, parked, job, session, dispatcher⟩,
    taken, finishing, calling, isDropped⟩, starting⟩
  obtain rfl : starting = none := idle
  obtain rfl : isDropped = false := present
  cases parked with
  | some other => exact ⟨rfl, rfl⟩
  | none =>
      cases made : registry.resolve options (identify accepted) with
      | nil =>
          simp [workBy, play, Staged.turn, enter, reserve, advance, Staged.publish, Live.ask,
            searchWith, Discovery.verdict, resolve, nextSession, withdraw, made]
      | cons method rest =>
          simp [workBy, play, Staged.turn, enter, reserve, advance, Staged.publish, Live.ask,
            searchWith, Discovery.verdict, resolve, nextSession, made, Discovery.announce,
            Discovery.publish]

variable {marks : List Discovery.Mark} {staged : Staged} {settled : List (Ask × Call)}
  {standing : Option Ask}

theorem Holds.fresh (registry : Registry) (identify : Nat → Session) :
    Holds [] (fresh registry identify) :=
  .idle rfl (.fresh registry identify)

/-- As long as a discovery has not been dropped, its dispatcher is open. -/
theorem Holds.isOpen (holds : Holds marks staged) (present : staged.live.isDropped = false) :
    staged.live.discovery.dispatcher.isOpen = true := by
  by_contra closed
  have closed : staged.live.discovery.dispatcher.isOpen = false := by simpa using closed
  have dropped : staged.live.isDropped = true := by
    cases holds with
    | idle starting stands => exact (stands.shut closed).1
    | early starting stage present parked stands => exact (stands.shut closed).1
    | late starting stage present published new stands => exact (stands.shut closed).1
  simp [present] at dropped

/-- While a search is starting, the slot is taken. -/
theorem Holds.parked (holds : Holds marks staged) (starting : staged.starting.isSome = true) :
    staged.live.discovery.parked.isSome = true := by
  cases holds with
  | idle none => simp [none] at starting
  | early _ stage present parked stands => simp [parked]
  | late _ stage present published new stands =>
      have parked : staged.live.discovery.parked = _ := stands.parked
      simp [parked]

/-- Another search is turned down as long as the slot is taken. -/
theorem Holds.decline (holds : Holds marks staged) (present : staged.live.isDropped = false)
    (callback : Callback) :
    Holds (marks ++ [.asked ⟨callback, .busy⟩])
      { staged with live := { staged.live with
          discovery := staged.live.discovery.post ⟨callback, [], .busy⟩ } } := by
  have isOpen := holds.isOpen present
  cases holds with
  | idle starting stands => exact .idle starting (stands.decline isOpen rfl (.busy callback))
  | early starting stage present parked stands =>
      exact .early starting stage present parked (stands.decline isOpen rfl (.busy callback))
  | late starting stage present published new stands =>
      exact .late starting stage present published new
        (stands.decline isOpen rfl (.busy callback))

/-- A search that is asked for reserves the slot, or is turned down. -/
theorem Holds.enter (holds : Holds marks staged) (present : staged.live.isDropped = false)
    (options : Options) (callback : Callback) (isNested : Bool) :
    Holds (marks ++ seen (staged.enter options callback isNested).1)
      (staged.enter options callback isNested).2 := by
  unfold Staged.enter reserve
  cases parked : staged.live.discovery.parked with
  | some other => exact holds.decline present callback
  | none =>
      have none : staged.starting = none := by
        by_contra starting
        have taken := holds.parked (Option.isSome_iff_ne_none.mpr starting)
        simp [parked] at taken
      cases holds with
      | early starting => simp [none] at starting
      | late starting => simp [none] at starting
      | idle starting stands =>
          rename_i settled standing
          have free : standing = .none := by
            have same := stands.parked
            rw [parked] at same
            simpa using same.symm
          subst free
          -- as if the slot were free, the discovery is what it was before
          have same : Live.withSlot .none { staged.live with
              discovery := { staged.live.discovery with parked := some callback } } =
                staged.live := by
            rcases staged with ⟨⟨⟨registry, identify, accepted, slot, job, session, dispatcher⟩,
              taken, finishing, calling, isDropped⟩, starting⟩
            obtain rfl : slot = .none := parked
            rfl
          rw [← same] at stands
          simp only [seen_nil, List.append_nil]
          exact .early rfl rfl present rfl stands

/-- What the callback that is being called has still to ask for does not matter. -/
theorem Holds.withCalling (holds : Holds marks staged) (present : staged.live.isDropped = false)
    (calling : List (Options × Callback)) :
    Holds marks { staged with live := { staged.live with calling } } := by
  cases holds with
  | idle starting stands => exact .idle starting (stands.withCalling present calling)
  | early starting stage present parked stands =>
      exact .early starting stage present parked (stands.withCalling present calling)
  | late starting stage present published new stands =>
      exact .late starting stage present published new (stands.withCalling present calling)

/-- A search whose methods are made is published, or turned down if there are none. -/
theorem Holds.publish {callback : Callback} (present : staged.live.isDropped = false)
    (parked : staged.live.discovery.parked = some callback)
    (stands : Stands marks (staged.live.withSlot none) settled none)
    (methods : List Method)
    (isNested : Bool) :
    Holds (marks ++ seen (staged.publish methods isNested).1)
      (staged.publish methods isNested).2 := by
  unfold Staged.publish
  cases methods with
  | nil =>
      have isOpen : (staged.live.withSlot none).discovery.dispatcher.isOpen = true := by
        by_contra closed
        have dropped := (stands.shut (by simpa using closed)).1
        exact absurd (present.symm.trans dropped) Bool.false_ne_true
      have next := stands.decline isOpen rfl (.missing callback)
      simp only [withdraw, parked]
      exact .idle rfl next
  | cons method rest =>
      have next := stands.publish present (method :: rest) callback
        (some staged.live.discovery.nextSession)
      have same : Live.withJob (some (Job.new (Runner.ofMethods (method :: rest)).execute).run.1)
            { staged.live with discovery := staged.live.discovery.publish (method :: rest) } =
          { staged.live with discovery := { (staged.live.withSlot none).discovery with
              parked := some callback
              job := some (Job.new (Runner.ofMethods (method :: rest)).execute).run.1
              session := some staged.live.discovery.nextSession
              accepted := staged.live.discovery.accepted + 1 } } := by
        simp [Live.withJob, Live.withSlot, Discovery.publish, parked]
      simp only [parked]
      exact .late rfl rfl present rfl ⟨_, rfl⟩ (same ▸ next)

/-- However far the search that is starting has come, it goes on. -/
theorem Holds.advance (holds : Holds marks staged) :
    Holds (marks ++ seen staged.advance.1) staged.advance.2 := by
  cases holds with
  | idle starting stands =>
      simp only [Staged.advance, starting, seen_nil, List.append_nil]
      exact .idle starting stands
  | early starting stage present parked stands =>
      rename_i settled search callback
      rcases search with ⟨stage' , isNested⟩
      cases stage' with
      | reserved options =>
          simp only [Staged.advance, starting, seen_cons_made, seen_nil, List.append_nil]
          exact .early rfl rfl present parked stands
      | resolved methods =>
          simp only [Staged.advance, starting]
          exact Holds.publish present parked stands methods isNested
      | published | announced => cases stage
  | late starting stage present published new stands =>
      rename_i settled search ask job
      rcases search with ⟨stage' , isNested⟩
      cases stage' with
      | reserved | resolved => cases stage
      | published =>
          have next := stands.quiet (asks_activities staged.live.discovery.announce)
            (calls_activities _) (by simp)
          have marked : staged.live.discovery.announce.map (fun activity =>
              Mark.seen (.activity activity)) =
                (staged.live.discovery.announce.map .activity).map .seen := by
            simp
          simp only [Staged.advance, starting]
          rw [marked, seen_map]
          exact .late rfl rfl present published new next
      | announced =>
          have launched : { staged.live with discovery := staged.live.discovery.launch } =
              staged.live.withJob (some job.run.1) := by
            simp [Discovery.launch, Live.withJob, published]
          simp only [Staged.advance, starting, launched, seen_nil, List.append_nil]
          exact .idle rfl stands

/-- A job that has not been started takes no turn. -/
theorem turn_new {σ α : Type} (task : Task σ α) (next : Job.Turn) :
    (Job.new task).turn next = ([], .new task) := by
  cases next <;> rfl

/-- Whatever turn the discovery takes of itself, it goes on to hold. -/
theorem Holds.lift (holds : Holds marks staged) {next : Discovery.Turn}
    (plain : next.asks = false) (kept : next = .drop → staged.starting = none) :
    Holds (marks ++ (staged.live.turn next).1)
      { staged with live := (staged.live.turn next).2 } := by
  cases holds with
  | idle starting stands =>
      rcases stands.turn next with ⟨settled, standing, stands⟩
      exact .idle starting stands
  | early starting stage present parked stands =>
      have still : (staged.live.turn next).2.isDropped = false := by
        rw [Live.isDropped_turn _ staged.live, present]
        rintro rfl
        simp [kept rfl] at starting
      -- what does not leave the slot alone has nothing to do before a job is published
      by_cases leaves : next.leavesSlot = true
      · have after := stands.leaves leaves
        rw [Live.turn_withSlot leaves] at after
        exact .early starting stage still ((Live.parked_turn leaves staged.live).trans parked) after
      · have same : staged.live.turn next = ([], staged.live) := by
          cases next with
          | job | announce | post | call => exact absurd rfl leaves
          | search | nested => cases plain
          | drop => simp [kept rfl] at starting
          | take => exact congrArg (Prod.mk []) (Live.take_of_taken stands.engaged.taken_eq)
          | shut => exact congrArg (Prod.mk []) (Live.shut_of_present present)
        simp only [same, List.append_nil]
        exact .early starting stage present parked stands
  | late starting stage present published new stands =>
      have still : (staged.live.turn next).2.isDropped = false := by
        rw [Live.isDropped_turn _ staged.live, present]
        rintro rfl
        simp [kept rfl] at starting
      rcases new with ⟨task, rfl⟩
      -- what does not leave the job alone has nothing to do before it is launched
      by_cases leaves : next.leavesJob = true
      · have earlier : ∀ number ∈ staged.live.finishing.map Finishing.number,
            number ≠ staged.live.discovery.accepted := by
          intro number member
          have old : number ≤ staged.live.taken := stands.finishing number member
          have last : staged.live.discovery.accepted = staged.live.taken + 1 :=
            stands.engaged.last
          omega
        have after := stands.leaves (Live.leavesSlot_of_leavesJob leaves)
        rw [Live.turn_withJob leaves staged.live earlier] at after
        have unchanged := Live.job_turn leaves staged.live earlier
        exact .late starting stage still (unchanged.trans published) ⟨task, rfl⟩ after
      · have same : staged.live.turn next = ([], staged.live) := by
          cases next with
          | announce | post | call => exact absurd rfl leaves
          | search | nested => cases plain
          | drop => simp [kept rfl] at starting
          | job next =>
              rcases staged with ⟨⟨discovery, taken, finishing, calling, isDropped⟩, starting⟩
              rcases discovery with ⟨registry, identify, accepted, parked, job, session, dispatcher⟩
              obtain rfl : job = some (.new task) := published
              simp [Live.turn, Live.work, turn_new]
          | take => simp [Live.turn, Live.take, published, Job.outcome?, Job.new]
          | shut => exact congrArg (Prod.mk []) (Live.shut_of_present present)
        simp only [same, List.append_nil]
        exact .late starting stage present published ⟨task, rfl⟩ stands

/-- Whatever turn is taken, the discovery goes on to hold. -/
theorem Holds.turn (holds : Holds marks staged) (next : Turn) :
    Holds (marks ++ seen (staged.turn next).1) (staged.turn next).2 := by
  cases next with
  | advance => exact holds.advance
  | searching | request =>
      have nothing : marks = marks ++ [] := (List.append_nil marks).symm
      exact nothing ▸ holds
  | live next =>
      cases next with
      | search options callback =>
          cases callback with
          | none => simpa [Staged.turn] using holds
          | some callback =>
              simp only [Staged.turn]
              split
              · simpa using holds
              · rename_i present
                exact holds.enter (by simpa using present) options callback false
      | nested =>
          simp only [Staged.turn]
          split
          · rename_i options callback rest _ calling
            have present : staged.live.isDropped = false := by
              cases holds with
              | idle starting stands => exact stands.present (by simp [calling])
              | early _ _ present => exact present
              | late _ _ present => exact present
            exact (holds.withCalling present rest).enter present options callback true
          · simpa using holds
      | call =>
          simp only [Staged.turn]
          split
          · simpa using holds
          · simp only [Staged.lift, seen_map]
            show Holds (marks ++ (staged.live.turn .call).1) _
            exact holds.lift rfl nofun
      | drop =>
          simp only [Staged.turn]
          split
          · simpa using holds
          · rename_i free
            simp only [Staged.lift, seen_map]
            show Holds (marks ++ (staged.live.turn .drop).1) _
            exact holds.lift rfl fun _ => by simpa using free
      | job | take | announce | post | shut =>
          simp only [Staged.turn, Staged.lift, seen_map]
          exact holds.lift rfl nofun

/-- By whatever schedule it works, the discovery goes on to hold. -/
theorem Holds.workBy {marks : List Mark} (holds : Holds (seen marks) staged) (turns : List Turn) :
    Holds (seen (marks ++ (staged.workBy turns).1)) (staged.workBy turns).2 := by
  have keeps (marks : List Mark) (staged : Staged) (next : Turn)
      (holds : Holds (seen marks) staged) :
      Holds (seen (marks ++ (staged.turn next).1)) (staged.turn next).2 := by
    rw [seen_append]
    exact holds.turn next
  exact play_preserves keeps turns holds

end Staged

end BridgeFinder.Discovery
