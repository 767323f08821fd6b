import BridgeFinder.Proofs.Discovery.Stop
import BridgeFinder.Proofs.Runner.Parts

/-!
# What is told of a search

Of every search that was accepted it is told that it has started, what its methods have
reported, and, once its outcome is reported, how it has ended.  Every turn adds to what is told
of at most one search, and adds it at the end.
-/

namespace BridgeFinder.Discovery

open BridgeFinder.Job (Follows Recalls wasCancelled)

/-- The event that is reported. -/
def Mark.event? : Mark → Option Telemetry.Event
  | .activity done => done.event?
  | _ => none

/-- The events that are reported. -/
def events (marks : List Mark) : List Telemetry.Event :=
  marks.filterMap Mark.event?

@[simp]
theorem events_append (first second : List Mark) :
    events (first ++ second) = events first ++ events second :=
  List.filterMap_append

theorem events_activities (activities : List Activity) :
    events (activities.map .activity) = Activity.events activities := by
  simp only [events, Activity.events, List.filterMap_map]
  rfl

theorem events_ofJob (number : Nat) (seen : List (Job.Mark Activity)) :
    events (seen.map (.ofJob number)) = Activity.events (Job.signals seen) := by
  simp only [events, Activity.events, Job.signals, List.filterMap_map, List.filterMap_filterMap]
  congr 1
  funext mark
  cases mark <;> rfl

namespace Recorded

/-- The outcomes that have been reported, with the numbers of their searches. -/
def announced (recorded : Recorded) : List (Nat × Reporter) :=
  recorded.posted ++ (recorded.live.finishing.filter Finishing.announced).map Finishing.entry

/-- How a search has ended, if that has been reported. -/
def closing (recorded : Recorded) (number : Nat) : List Telemetry.Event :=
  (recorded.announced.filter (·.1 = number)).flatMap fun entry =>
    Activity.events entry.2.reports

/-- What is told of a search. -/
def told (recorded : Recorded) (number : Nat) : List Telemetry.Event :=
  if 0 < number ∧ number ≤ recorded.live.discovery.accepted then
    .discoveryStarted (recorded.live.discovery.identify (number - 1)).request ::
      (Activity.events (Task.signals (recorded.history number)) ++ recorded.closing number)
  else []

variable {marks : List Mark} {recorded other : Recorded} {settled : List (Ask × Call)}
  {standing : Option Ask} {number : Nat}

/-! ## Outcomes that have been reported -/

/-- Of each search the outcome is reported once. -/
theorem filter_eq_of_perm {entries others : List (Nat × Reporter)} (same : entries.Perm others)
    (nodup : (entries.map Prod.fst).Nodup) (number : Nat) :
    entries.filter (·.1 = number) = others.filter (·.1 = number) := by
  by_cases member : ∃ entry ∈ entries, entry.1 = number
  · rcases member with ⟨entry, there, rfl⟩
    rw [filter_eq_singleton nodup there,
      filter_eq_singleton ((same.map _).nodup_iff.mp nodup) (same.mem_iff.mp there)]
  · have none : entries.filter (·.1 = number) = [] := by
      rw [List.filter_eq_nil_iff]
      intro entry there
      simp only [decide_eq_true_eq]
      intro this
      exact member ⟨entry, there, this⟩
    have perm := same.filter (·.1 = number)
    rw [none] at perm ⊢
    exact perm.nil_eq

/-- An outcome that has been taken is reported, or still to be reported. -/
theorem outcomes_perm (recorded : Recorded) :
    recorded.outcomes.Perm (recorded.announced ++
      (recorded.live.finishing.filter fun finishing =>
        !finishing.announced).map Finishing.entry) := by
  have split := (List.filter_append_perm Finishing.announced recorded.live.finishing).symm
  rw [outcomes, announced, List.append_assoc, ← List.map_append]
  exact (split.map Finishing.entry).append_left _

theorem Agrees.nodup_announced (agrees : Agrees marks recorded) :
    (recorded.announced.map Prod.fst).Nodup := by
  have all := (recorded.outcomes_perm.map Prod.fst).nodup_iff.mp agrees.nodup
  rw [List.map_append] at all
  exact (List.nodup_append.mp all).1

/-- An outcome that is still to be reported has not been reported. -/
theorem Agrees.unannounced (agrees : Agrees marks recorded) {finishing : Finishing}
    (member : finishing ∈ recorded.live.finishing) (open' : finishing.announced = false) :
    finishing.number ∉ recorded.announced.map Prod.fst := by
  have all := (recorded.outcomes_perm.map Prod.fst).nodup_iff.mp agrees.nodup
  rw [List.map_append] at all
  intro reported
  have still : finishing.number ∈ ((recorded.live.finishing.filter fun finishing =>
      !finishing.announced).map Finishing.entry).map Prod.fst := by
    rw [List.map_map]
    exact List.mem_map_of_mem (List.mem_filter.mpr ⟨member, by simp [open']⟩)
  exact (List.nodup_append.mp all).2.2 _ reported _ still rfl

theorem mem_outcomes_of_announced {entry : Nat × Reporter} (member : entry ∈ recorded.announced) :
    entry ∈ recorded.outcomes :=
  recorded.outcomes_perm.mem_iff.mpr (List.mem_append_left _ member)

theorem closing_eq_nil (silent : number ∉ recorded.announced.map Prod.fst) :
    recorded.closing number = [] := by
  have none : recorded.announced.filter (·.1 = number) = [] := by
    rw [List.filter_eq_nil_iff]
    intro entry there
    simp only [decide_eq_true_eq]
    rintro rfl
    exact silent (List.mem_map_of_mem there)
  rw [closing, none, List.flatMap_nil]

theorem told_congr (accepted : other.live.discovery.accepted = recorded.live.discovery.accepted)
    (identify : other.live.discovery.identify = recorded.live.discovery.identify)
    (history : other.history number = recorded.history number)
    (closing : other.closing number = recorded.closing number) :
    other.told number = recorded.told number := by
  rw [told, told, accepted, identify, history, closing]

/-! ## What a turn tells -/

/-- What is reported is added to what is told of one search. -/
structure Tells (recorded : Recorded) (row : List Telemetry.Event) (next : Recorded)
    (teller : Nat) : Prop where
  known : row ≠ [] → 0 < teller ∧ teller ≤ next.live.discovery.accepted
  told : ∀ number, next.told number = recorded.told number ++ if number = teller then row else []
  /-- The search is the one that was accepted last, or its outcome had still to be reported. -/
  late : row ≠ [] → teller = next.live.discovery.accepted ∨
    next.live.discovery.accepted = recorded.live.discovery.accepted ∧
      ∃ finishing ∈ recorded.live.finishing, finishing.announced = false ∧
        finishing.number = teller

/-- A turn by which nothing is reported tells nothing. -/
theorem Tells.nothing (same : ∀ number, other.told number = recorded.told number) :
    Tells recorded [] other 0 where
  known none := absurd rfl none
  told number := by simp [same]
  late none := absurd rfl none

/-- The start of a search is told when it is accepted. -/
theorem Agrees.tells_ask (agrees : Agrees marks recorded)
    (stands : Stands marks recorded.live settled standing) (options : Options)
    (callback : Option Callback) :
    ∃ teller, Tells recorded (events (recorded.live.ask options callback).1)
      { recorded with live := (recorded.live.ask options callback).2 } teller := by
  cases callback with
  | none => exact ⟨0, .nothing fun _ => rfl⟩
  | some callback =>
      unfold Live.ask
      cases verdict : recorded.live.discovery.verdict options with
      | busy =>
          rw [searchWith_of_busy verdict]
          exact ⟨0, .nothing fun _ => rfl⟩
      | missing =>
          rw [searchWith_of_missing verdict]
          exact ⟨0, .nothing fun _ => rfl⟩
      | accepted number methods =>
          rw [searchWith_of_accepted verdict]
          apply Exists.intro (recorded.live.discovery.accepted + 1)
          constructor
          · intro _
            exact ⟨Nat.succ_pos _, Nat.le_refl _⟩
          · intro other
            by_cases last : other = recorded.live.discovery.accepted + 1
            · subst last
              have silent : recorded.closing (recorded.live.discovery.accepted + 1) = [] := by
                apply closing_eq_nil
                intro reported
                rcases List.mem_map.mp reported with ⟨entry, there, same⟩
                have := (agrees.known stands (mem_outcomes_of_announced there)).2
                omega
              have unseen := agrees.unseen _ (Nat.lt_succ_self recorded.live.discovery.accepted)
              rw [told, told, if_pos ⟨Nat.succ_pos _, Nat.le_refl _⟩, if_neg (by omega), if_pos rfl,
                List.nil_append]
              change _ :: (Activity.events (Task.signals (recorded.history _)) ++
                recorded.closing _) = _
              rw [unseen, silent]
              rfl
            · rw [if_neg last, List.append_nil, told, told]
              apply if_congr
              · simp only
                omega
              · rfl
              · rfl
          · intro _
            exact .inl rfl

/-- What the methods of the last search report is told of it. -/
theorem Agrees.tells_work (agrees : Agrees marks recorded)
    (stands : Stands marks recorded.live settled standing) (next : Job.Turn) :
    ∃ teller, Tells recorded (events (recorded.live.work next).1)
      { recorded with
        live := (recorded.live.work next).2
        history := fun number => recorded.history number ++ recorded.trail (.job next) number }
      teller := by
  cases present : recorded.live.discovery.job with
  | none =>
      simp only [Live.work, Recorded.trail, Live.trail, present]
      exact ⟨0, .nothing fun number => by simp [told, closing, announced]⟩
  | some job =>
      have late := (stands.engaged.work present next).2
      have row : Activity.events (Task.signals (job.trail next)) =
          events ((job.turn next).1.map (.ofJob recorded.live.discovery.accepted)) := by
        rw [events_ofJob, Job.signals_trail]
      simp only [Live.work, Recorded.trail, Live.trail, present, Option.map_some, Option.getD_some]
      apply Exists.intro recorded.live.discovery.accepted
      constructor
      · intro some
        rcases late with later | silent
        · exact ⟨Nat.lt_of_le_of_lt (Nat.zero_le _) later, Nat.le_refl _⟩
        · simp [silent, events] at some
      · intro number
        by_cases last : number = recorded.live.discovery.accepted
        · subst last
          have closed : recorded.closing recorded.live.discovery.accepted = [] ∨
              events ((job.turn next).1.map (.ofJob recorded.live.discovery.accepted)) = [] := by
            rcases late with later | silent
            · left
              apply closing_eq_nil
              intro reported
              rcases List.mem_map.mp reported with ⟨entry, there, same⟩
              have := agrees.number_le (mem_outcomes_of_announced there)
              omega
            · right
              rw [silent]
              rfl
          rw [if_pos rfl, told, told]
          split
          · change _ :: (Activity.events (Task.signals (recorded.history _ ++
              if _ = _ then job.trail next else [])) ++ recorded.closing _) = _
            rw [if_pos rfl, Task.signals_append, Activity.events_append, row]
            rcases closed with none | silent
            · simp [none]
            · simp [silent]
          · rename_i unknown
            rcases late with later | silent
            · simp only at unknown
              omega
            · rw [silent]
              rfl
        · simp only [told, closing, announced, if_neg last, List.append_nil]
      · intro _
        exact .inl rfl

/-- An outcome that is reported joins the others that have been. -/
theorem filter_announced {finishing : List Finishing} {place : Nat} {first : Finishing}
    (found : finishing[place]? = some first) (open' : first.announced = false) :
    ((finishing.set place { first with announced := true }).filter Finishing.announced).Perm
      (finishing.filter Finishing.announced ++ [{ first with announced := true }]) := by
  induction finishing generalizing place with
  | nil => simp at found
  | cons head rest ih =>
      cases place with
      | zero =>
          cases found
          rw [List.set_cons_zero, List.filter_cons_of_pos rfl,
            List.filter_cons_of_neg (by simp [open'])]
          exact (List.perm_append_singleton _ _).symm
      | succ place =>
          have joined := ih (by simpa using found)
          rw [List.set_cons_succ, List.filter_cons, List.filter_cons]
          split
          · exact joined.cons head
          · exact joined

/-- The end of a search is told when its outcome is reported. -/
theorem Agrees.tells_announce (agrees : Agrees marks recorded)
    (stands : Stands marks recorded.live settled standing) (place : Nat) :
    ∃ teller, Tells recorded (events (recorded.live.announce place).1)
      { recorded with live := (recorded.live.announce place).2 } teller := by
  have next := agrees.announce place
  unfold Live.announce at next ⊢
  cases found : recorded.live.finishing[place]? with
  | none => exact ⟨0, .nothing fun _ => rfl⟩
  | some first =>
      by_cases announced : first.announced = true
      · simp only [if_pos announced]
        exact ⟨0, .nothing fun _ => rfl⟩
      · simp only [found, if_neg announced] at next ⊢
        have member := List.mem_of_getElem? found
        have open' : first.announced = false := by simpa using announced
        have outcome : first.entry ∈ recorded.outcomes :=
          List.mem_append_right _ (List.mem_map_of_mem member)
        have known : 0 < first.number ∧ first.number ≤ recorded.live.discovery.accepted :=
          agrees.known stands outcome
        rw [events_activities]
        apply Exists.intro first.number
        constructor
        · intro _
          exact known
        · intro number
          have closed : Recorded.closing { recorded with live := { recorded.live with
                finishing := recorded.live.finishing.set place { first with announced := true } } }
                number =
              recorded.closing number ++
                if number = first.number then Activity.events first.reporter.reports else [] := by
            have joined := (filter_announced found open').map Finishing.entry
            rw [List.map_append] at joined
            have perm := joined.append_left recorded.posted
            rw [← List.append_assoc] at perm
            rw [closing, Recorded.announced, filter_eq_of_perm perm next.nodup_announced,
              List.filter_append, List.flatMap_append]
            congr 1
            by_cases same : number = first.number
            · simp [Finishing.entry, same]
            · simp [Finishing.entry, same, Ne.symm same]
          rw [told, told, closed]
          split
          · simp
          · rename_i unknown
            have other : number ≠ first.number := by
              rintro rfl
              exact unknown known
            simp [other]
        · intro _
          exact .inr ⟨rfl, first, member, open', rfl⟩

/-- Nothing is told when an outcome that has been reported is posted. -/
theorem Agrees.told_post (agrees : Agrees marks recorded) (place number : Nat) :
    Recorded.told
      { recorded with
        live := recorded.live.post place
        posted := recorded.posted ++ recorded.live.posting (.post place) } number =
      recorded.told number := by
  cases found : recorded.live.finishing[place]? with
  | none => simp only [Live.post, Live.posting, found, List.append_nil]
  | some first =>
      by_cases announced : first.announced = true
      · simp only [Live.post, Live.posting, found, if_pos announced]
        rcases exists_hand_eq first.reporter recorded.live.discovery with ⟨waiting, handed⟩
        rw [handed, close_eq]
        have perm : recorded.announced.Perm ((recorded.posted ++ [first.entry]) ++
            ((recorded.live.finishing.eraseIdx place).filter Finishing.announced).map
              Finishing.entry) := by
          rcases List.getElem?_eq_some_iff.mp found with ⟨bound, rfl⟩
          have split := (List.getElem_cons_eraseIdx_perm bound).filter Finishing.announced
          rw [List.filter_cons_of_pos announced] at split
          rw [List.append_assoc]
          exact (split.map Finishing.entry).symm.append_left _
        apply told_congr
        · rfl
        · rfl
        · rfl
        · rw [closing, closing, filter_eq_of_perm perm agrees.nodup_announced]
          rfl
      · simp only [Live.post, Live.posting, found, if_neg announced, List.append_nil]

/-- Nothing is told when an outcome is taken. -/
theorem told_take (recorded : Recorded) (number : Nat) :
    Recorded.told { recorded with live := recorded.live.take } number = recorded.told number := by
  unfold Live.take
  split
  · rfl
  · split
    · rfl
    · apply told_congr
      · rfl
      · rfl
      · rfl
      · simp [closing, announced, List.filter_append]

/-- Nothing is told when a callback is called. -/
theorem tells_call (recorded : Recorded) :
    Tells recorded (events recorded.live.call.1)
      { recorded with live := recorded.live.call.2 } 0 := by
  unfold Live.call
  split
  · exact .nothing fun _ => rfl
  · exact .nothing fun _ => rfl

/-- Nothing is told when a discovery is dropped. -/
theorem tells_drop (recorded : Recorded) :
    Tells recorded (events recorded.live.drop.1)
      { recorded with live := recorded.live.drop.2 } 0 := by
  unfold Live.drop
  split
  · exact .nothing fun _ => rfl
  · unfold Live.work
    cases present : recorded.live.discovery.job with
    | none => exact .nothing fun _ => rfl
    | some job =>
        have silent : events ((Job.turn .request job).1.map
            (.ofJob recorded.live.discovery.accepted)) = [] := by
          rw [events_ofJob, ← Job.signals_trail]
          rfl
        simp only [silent]
        exact .nothing fun _ => rfl

/-- Nothing is told when the dispatcher is shut down. -/
theorem told_shut (recorded : Recorded) (number : Nat) :
    Recorded.told { recorded with live := recorded.live.shut } number = recorded.told number := by
  unfold Live.shut
  split <;> rfl

/-- Whatever turn is taken, it tells of at most one search. -/
theorem Sound.exists_tells (sound : Sound marks recorded) (next : Turn) :
    ∃ teller, Tells recorded (events (recorded.turn next).1) (recorded.turn next).2 teller := by
  rcases sound with ⟨agrees, settled, standing, stands⟩
  cases next with
  | job next =>
      simpa only [Recorded.turn, Live.turn, Live.posting, List.append_nil]
        using agrees.tells_work stands next
  | announce place =>
      rw [turn_live recorded rfl rfl]
      exact agrees.tells_announce stands place
  | search options callback =>
      rw [turn_live recorded rfl rfl]
      simp only [Live.turn]
      split
      · exact ⟨0, .nothing fun _ => rfl⟩
      · exact agrees.tells_ask stands options callback
  | nested =>
      rw [turn_live recorded rfl rfl]
      simp only [Live.turn, Live.nested]
      split
      · exact ⟨0, .nothing fun _ => rfl⟩
      · rename_i options callback rest calling
        have present : recorded.live.isDropped = false := stands.present (by simp [calling])
        rcases (agrees.aside rest recorded.live.isDropped).tells_ask
          (stands.withCalling present rest) options (some callback) with
          ⟨teller, known, told, late⟩
        exact ⟨teller, known, told, late⟩
  | post place =>
      rw [turn_eq recorded rfl]
      exact ⟨0, .nothing (agrees.told_post place)⟩
  | take =>
      rw [turn_live recorded rfl rfl]
      exact ⟨0, .nothing recorded.told_take⟩
  | call =>
      rw [turn_live recorded rfl rfl]
      exact ⟨0, recorded.tells_call⟩
  | drop =>
      rw [turn_live recorded rfl rfl]
      exact ⟨0, recorded.tells_drop⟩
  | shut =>
      rw [turn_live recorded rfl rfl]
      exact ⟨0, .nothing recorded.told_shut⟩

end Recorded

end BridgeFinder.Discovery
