import BridgeFinder.MethodSearch.Turn
import BridgeFinder.Proofs.Job.Settle

/-!
# A search with one method that is moved on

A search that is moved on as far as it goes by itself, one that is let on and one that is
asked to stop take turns like any other.
-/

namespace BridgeFinder.MethodSearch

variable {ν : Type}

/-- What the job of a search does by itself, it does in the search. -/
theorem reaches_job (kind : Kind) (session : Session) (callback : ν)
    {job last : Job Activity (List Bridge)} {marks : List (Job.Mark Activity)}
    (reaches : Reaches Job.turn job marks last) :
    Reaches turn (⟨kind, session, some ⟨job, callback⟩⟩ : MethodSearch ν) (marks.map .ofJob)
      ⟨kind, session, some ⟨last, callback⟩⟩ := by
  let among (job : Job Activity (List Bridge)) : MethodSearch ν :=
    ⟨kind, session, some ⟨job, callback⟩⟩
  exact reaches.lift Turn.job Mark.ofJob among fun _ _ => rfl

theorem ofJob_comp_signal : Mark.ofJob ∘ Job.Mark.signal = (Mark.activity : Activity → Mark ν) :=
  rfl

/-- A search that is moved on takes turns, with what it does and what it delivers. -/
theorem reaches_settle (method : MethodSearch ν) :
    Reaches turn method (method.settle.1.map .activity ++ method.settle.2.1.map .delivered)
      method.settle.2.2 := by
  rcases method with ⟨kind, session, current⟩
  cases current with
  | none => exact .rest _
  | some current =>
      rcases current with ⟨job, callback⟩
      have moved := reaches_job kind session callback (Job.reaches_settle job)
      rw [List.map_map, ofJob_comp_signal] at moved
      simp only [settle]
      cases reported : job.settle.2.outcome? with
      | none => simpa using moved
      | some outcome =>
          have delivered := moved.trans (.cons Turn.deliver (.rest _))
          simpa [turn, reported] using delivered

/-- A search that is let on takes a turn. -/
theorem reaches_release {method next : MethodSearch ν} (released : method.release? = some next) :
    Reaches turn method [] next := by
  rcases method with ⟨kind, session, current⟩
  cases current with
  | none => cases released
  | some current =>
      rcases current with ⟨job, callback⟩
      rcases Option.map_eq_some_iff.mp released with ⟨last, on, rfl⟩
      exact reaches_job kind session callback (Job.reaches_release on)

/-- A search that is asked to stop makes both sections of a call to cancel. -/
theorem reaches_cancel (method : MethodSearch ν) :
    Reaches turn method (if method.cancel.2 then [.cancelled] else []) method.cancel.1 := by
  rcases method with ⟨kind, session, current⟩
  cases current with
  | none => exact .rest _
  | some current =>
      rcases current with ⟨job, callback⟩
      have moved := reaches_job kind session callback (Job.reaches_cancel job)
      rw [apply_ite (List.map Mark.ofJob)] at moved
      exact moved

end BridgeFinder.MethodSearch
