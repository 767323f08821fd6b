import BridgeFinder.Proofs.Runner.Rounds

/-!
# Where a run of methods is cut

The token of a run is fired at most once.  All rounds that have ended by then have run as if it
never were; one round may be running, and no other begins.
-/

namespace BridgeFinder.Runner

open BridgeFinder.Task (Course Mark Run)

variable {queue methods : List Method} {token : Bool} {marks : List (Mark Activity)}
  {rounds : List Round} {last : Run Activity (List Bridge × Runner)}

/-- The search of a round finds its token fired exactly if it is fired in this round. -/
theorem Round.Begun.token_iff {round : Round} (begun : round.Begun) :
    round.last.token = true ↔ .fired ∈ round.marks := by
  cases begun with
  | refused => simp
  | searched searches firing course =>
      rw [course.token_iff]
      cases firing with
      | none => simp
      | once => simp

/-- A run of methods takes its rounds, and in the end it has merged what they delivered. -/
theorem exists_sequence (course : Course ⟨token, (ofMethods methods).execute⟩ marks last) :
    ∃ rounds, Sequence (ofMethods methods).queue token marks rounds ∧
      ∀ bridges left, last.task = .done (bridges, left) →
        Merges (ofMethods methods).queue last.token rounds bridges left := by
  rcases course.map_cases with ⟨after, rest, inner, rfl⟩
  rcases exists_rounds inner with ⟨rounds, sequence, -, ends⟩
  apply Exists.intro rounds
  apply And.intro sequence
  intro bridges left ended
  cases rest with
  | done runner =>
      cases ended
      exact (ends runner rfl).merges
  | emit | check | pick | gate | hold | stall => cases ended

/-- The rounds of a run as its token has cut them: those that have ended before it was fired,
and the one that was running then. -/
structure Cut (queue : List Method) (marks : List (Mark Activity)) (finished : List Round)
    (running : Option Round) : Prop where
  sequence : Sequence queue false marks (finished ++ running.toList)
  /-- The rounds before were not cancelled, and have ended by themselves. -/
  whole : ∀ round ∈ finished, round.IsOver ∧ round.last.token = false ∧ .fired ∉ round.marks
  /-- The token was fired while this round was running. -/
  struck : ∀ round ∈ running, .fired ∈ round.marks

/-- Where all rounds have ended, the token has cut them at most before the last one. -/
theorem Sequence.exists_cut (sequence : Sequence queue false marks rounds)
    (closed : ∀ round ∈ rounds, round.IsOver) :
    ∃ finished running, rounds = finished ++ running.toList ∧ Cut queue marks finished running := by
  have whole {before : List Round} (part : ∀ round ∈ before, round ∈ rounds)
      (unfired : .fired ∉ before.flatMap Round.marks) :
      ∀ round ∈ before, round.IsOver ∧ round.last.token = false ∧ .fired ∉ round.marks := by
    intro round member
    have here : .fired ∉ round.marks := by
      intro fired
      exact unfired (List.mem_flatMap.mpr ⟨round, member, fired⟩)
    refine ⟨closed round (part round member), ?_, here⟩
    rw [← Bool.not_eq_true, (sequence.begun round (part round member)).token_iff]
    exact here
  rcases List.eq_nil_or_concat' rounds with rfl | ⟨before, round, rfl⟩
  · exact ⟨[], none, rfl, sequence, nofun, nofun⟩
  · have unfired := (sequence.uncancelled before round [] rfl).2
    by_cases fired : .fired ∈ round.marks
    · refine ⟨before, some round, rfl, sequence, whole (by simp +contextual) unfired, ?_⟩
      rintro _ ⟨⟩
      exact fired
    · refine ⟨before ++ [round], none, (List.append_nil _).symm, ?_, ?_, nofun⟩
      · rwa [Option.toList_none, List.append_nil]
      · apply whole (fun _ member => member)
        rw [List.flatMap_append, List.mem_append, List.flatMap_singleton]
        exact not_or.mpr ⟨unfired, fired⟩

/-- A run of methods that has ended has merged what was delivered before its token was fired
and what the method that was running then has still delivered. -/
theorem exists_cut {bridges : List Bridge} {left : Runner}
    (course : Course ⟨false, (ofMethods methods).execute⟩ marks ⟨token, .done (bridges, left)⟩) :
    ∃ finished running, Cut (ofMethods methods).queue marks finished running ∧
      Merges (ofMethods methods).queue token (finished ++ running.toList) bridges left := by
  rcases exists_sequence course with ⟨rounds, sequence, merged⟩
  have merges := merged bridges left rfl
  rcases sequence.exists_cut merges.closed with ⟨finished, running, rfl, cut⟩
  exact ⟨finished, running, cut, merges⟩

end BridgeFinder.Runner
