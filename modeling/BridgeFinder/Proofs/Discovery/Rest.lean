import BridgeFinder.Proofs.Discovery.Stands
import BridgeFinder.Proofs.Job.Rest
import Mathlib.Data.Prod.Lex

/-!
# How a discovery comes to rest

By itself a discovery takes only so many turns.  A callback that is called asks for smaller
ones; as long as none is called, it asks for fewer and fewer searches, its job comes nearer
to its end, and the outcomes that were taken are posted.
-/

namespace BridgeFinder.Discovery

/-- The callbacks of calls, with all those in them. -/
def callbacksIn (calls : List Call) : Nat :=
  calls.foldr (fun call total => call.callback.size + total) 0

@[simp]
theorem callbacksIn_nil : callbacksIn [] = 0 :=
  rfl

@[simp]
theorem callbacksIn_cons (call : Call) (calls : List Call) :
    callbacksIn (call :: calls) = call.callback.size + callbacksIn calls :=
  rfl

@[simp]
theorem callbacksIn_append (first second : List Call) :
    callbacksIn (first ++ second) = callbacksIn first + callbacksIn second := by
  induction first with
  | nil => simp
  | cons call rest ih => simp [ih, Nat.add_assoc]

theorem callbacksIn_perm {first second : List Call} (same : first.Perm second) :
    callbacksIn first = callbacksIn second := by
  induction same with
  | nil => rfl
  | cons call _ ih => simp [ih]
  | swap => simp [Nat.add_left_comm]
  | trans _ _ ih₁ ih₂ => exact ih₁.trans ih₂

theorem callbacksIn_sublist {first second : List Call} (part : first.Sublist second) :
    callbacksIn first ≤ callbacksIn second := by
  induction part with
  | slnil => exact Nat.le_refl _
  | cons call _ ih => exact Nat.le_trans ih (Nat.le_add_left _ _)
  | cons_cons call _ ih => exact Nat.add_le_add_left ih _

theorem size_eq (callback : Callback) :
    callback.size = Callback.sizes callback.searches + 1 := by
  cases callback with
  | mk name searches => simp [Callback.size, Callback.searches]

/-- How much is still to be done about outcomes that were taken. -/
def paperwork (finishing : List Finishing) : Nat :=
  finishing.foldr (fun finishing total => (if finishing.announced then 1 else 2) + total) 0

theorem paperwork_announced {finishing : List Finishing} {place : Nat} {first : Finishing}
    (found : finishing[place]? = some first) (unannounced : first.announced ≠ true) :
    paperwork (finishing.set place { first with announced := true }) < paperwork finishing := by
  induction finishing generalizing place with
  | nil => simp at found
  | cons head rest ih =>
      cases place with
      | zero =>
          cases found
          simp [paperwork, unannounced]
      | succ place =>
          have := ih (by simpa using found)
          exact Nat.add_lt_add_left this _

theorem paperwork_eraseIdx {finishing : List Finishing} {place : Nat} {first : Finishing}
    (found : finishing[place]? = some first) :
    paperwork (finishing.eraseIdx place) < paperwork finishing := by
  induction finishing generalizing place with
  | nil => simp at found
  | cons head rest ih =>
      cases place with
      | zero =>
          simp only [paperwork, List.eraseIdx_zero, List.tail_cons, List.foldr_cons]
          split <;> omega
      | succ place =>
          have := ih (by simpa using found)
          exact Nat.add_lt_add_left this _

namespace Live

/-- The callbacks that are still to be called, with all those in them. -/
def backlog (live : Live) : Nat :=
  Callback.sizes live.calling + (live.discovery.parked.map Callback.size).getD 0 +
    callbacksIn live.due

/-- What is left of the job, and of taking its outcome. -/
def labour (live : Live) : Nat :=
  (if live.taken = live.discovery.accepted then 0 else 1) +
    (live.discovery.job.map Job.weight).getD 0

/-- What is left of reporting outcomes, and of shutting down the dispatcher. -/
def closing (live : Live) : Nat :=
  paperwork live.finishing + if live.discovery.dispatcher.isOpen then 1 else 0

/-- Less is left to do: in the first place of callbacks, then of searches to ask for, then
of the job, and last of reporting. -/
def IsBelow (next live : Live) : Prop :=
  Prod.Lex (· < ·) (Prod.Lex (· < ·) (Prod.Lex (· < ·) (· < ·)))
    (next.backlog, next.calling.length, next.labour, next.closing)
    (live.backlog, live.calling.length, live.labour, live.closing)

theorem wellFounded_isBelow : WellFounded IsBelow :=
  InvImage.wf (fun live : Live => (live.backlog, live.calling.length, live.labour, live.closing))
    (WellFounded.prod_lex Nat.lt_wfRel.wf
      (WellFounded.prod_lex Nat.lt_wfRel.wf
        (WellFounded.prod_lex Nat.lt_wfRel.wf Nat.lt_wfRel.wf)))

theorem isBelow_iff {next live : Live} :
    next.IsBelow live ↔
      next.backlog < live.backlog ∨ next.backlog = live.backlog ∧
        (next.calling.length < live.calling.length ∨
          next.calling.length = live.calling.length ∧
            (next.labour < live.labour ∨
              next.labour = live.labour ∧ next.closing < live.closing)) := by
  simp [IsBelow, Prod.lex_def]

theorem IsBelow.of_closing {next live : Live} (backlog : next.backlog ≤ live.backlog)
    (calling : next.calling = live.calling) (labour : next.labour ≤ live.labour)
    (closing : next.closing < live.closing) : next.IsBelow live := by
  rw [isBelow_iff, calling]
  omega

variable {live : Live}

/-- The job works at what is left of it. -/
theorem work_below {next : Job.Turn} (own : next ≠ .request) (live : Live) :
    live.work next = ([], live) ∨ (live.work next).2.IsBelow live := by
  unfold work
  cases present : live.discovery.job with
  | none => exact .inl rfl
  | some job =>
      rcases (Job.step_turn next job).weight own with ⟨none, same⟩ | less
      · left
        simp only [none, same]
        rcases live with ⟨discovery, taken, finishing, calling, isDropped⟩
        rcases discovery with ⟨registry, identify, accepted, parked, job', session, dispatcher⟩
        obtain rfl : job' = some job := present
        rfl
      · right
        have labour : (work next live).2.labour < live.labour := by
          simp only [work, labour, present, Option.map_some, Option.getD_some]
          exact Nat.add_lt_add_left less _
        simp only [work, present] at labour
        rw [isBelow_iff]
        exact .inr ⟨rfl, .inr ⟨rfl, .inl labour⟩⟩

/-- The outcome of a job is taken once. -/
theorem take_below (live : Live) : live.take = live ∨ live.take.IsBelow live := by
  unfold take
  cases reported : live.discovery.job.bind Job.outcome? with
  | none => exact .inl rfl
  | some outcome =>
      by_cases taken : live.taken = live.discovery.accepted
      · simp [taken]
      · right
        simp only [if_neg taken]
        rw [isBelow_iff]
        refine .inr ⟨?_, .inr ⟨rfl, .inl ?_⟩⟩
        · cases parked : live.discovery.parked with
          | none =>
              have none : Reporter.call? ⟨none, live.discovery.session, outcome⟩ = none := rfl
              simp [backlog, due, Discovery.take, parked, none]
          | some callback =>
              simp [backlog, due, Discovery.take, parked, Reporter.call?]
              omega
        · simp [labour, Discovery.take, taken]

/-- An outcome is reported once. -/
theorem announce_below (place : Nat) (live : Live) :
    live.announce place = ([], live) ∨ (live.announce place).2.IsBelow live := by
  unfold announce
  cases found : live.finishing[place]? with
  | none => exact .inl rfl
  | some first =>
      by_cases announced : first.announced = true
      · simp [announced]
      · right
        simp only [if_neg announced]
        rw [isBelow_iff]
        have reporters : (live.finishing.set place { first with announced := true }).map
            Finishing.reporter = live.finishing.map Finishing.reporter := map_announced rfl found
        refine .inr ⟨?_, .inr ⟨rfl, .inr ⟨rfl, ?_⟩⟩⟩
        · simp only [backlog, due, reporters]
        · exact Nat.add_lt_add_right (paperwork_announced found announced) _

/-- No call becomes due by handing over. -/
theorem callbacksIn_hand {place : Nat} {first : Finishing}
    (found : live.finishing[place]? = some first) :
    callbacksIn (due { live with
        discovery := live.discovery.hand first.reporter
        finishing := live.finishing.eraseIdx place }) ≤ callbacksIn live.due := by
  cases isOpen : live.discovery.dispatcher.isOpen with
  | true => exact Nat.le_of_eq (callbacksIn_perm (due_hand found isOpen)).symm
  | false =>
      have refused : live.discovery.hand first.reporter = live.discovery := by
        unfold hand
        split
        · simp [Discovery.post, Dispatcher.post, isOpen]
        · rfl
      rw [refused]
      apply callbacksIn_sublist
      exact (((List.eraseIdx_sublist _ _).map _).filterMap _).append_left _

/-- An outcome is posted once. -/
theorem post_below (place : Nat) (live : Live) :
    live.post place = live ∨ (live.post place).IsBelow live := by
  unfold post
  cases found : live.finishing[place]? with
  | none => exact .inl rfl
  | some first =>
      by_cases announced : first.announced = true
      · right
        simp only [if_pos announced]
        rcases exists_hand_eq first.reporter live.discovery with ⟨waiting, handed⟩
        have fewer := callbacksIn_hand found
        rw [handed] at fewer ⊢
        apply IsBelow.of_closing
        · refine Nat.add_le_add (Nat.le_of_eq ?_) (Nat.le_trans (Nat.le_of_eq ?_) fewer)
          · simp only [close]
            split <;> rfl
          · simp only [due, close]
            split <;> rfl
        · rfl
        · simp only [labour, close]
          split
          · apply Nat.add_le_add_left
            cases live.discovery.job with
            | none => exact Nat.le_refl _
            | some job => exact Job.weight_close job
          · exact Nat.le_refl _
        · apply Nat.add_lt_add_of_lt_of_le (paperwork_eraseIdx found)
          apply Nat.le_of_eq
          simp only [close]
          split <;> rfl
      · simp [announced]

/-- A callback that is called asks for smaller ones. -/
theorem call_below (live : Live) : live.call = ([], live) ∨ live.call.2.IsBelow live := by
  unfold call
  split
  · rename_i call dispatcher idle taken
    rcases next?_eq_some taken with ⟨waiting, -⟩
    right
    rw [isBelow_iff]
    left
    simp only [backlog, due, waiting, idle, size_eq, List.cons_append, callbacksIn_cons,
      Callback.sizes]
    split
    · simp only [Callback.sizes]
      omega
    · omega
  · exact .inl rfl

/-- A call that is posted adds no more than its callback. -/
theorem backlog_post (answer : Call) (live : Live) :
    backlog { live with discovery := live.discovery.post answer } ≤
      live.backlog + answer.callback.size := by
  cases isOpen : live.discovery.dispatcher.isOpen with
  | true =>
      have due := callbacksIn_perm (due_post isOpen answer)
      simp only [callbacksIn_cons, post_eq isOpen] at due
      simp only [backlog, post_eq isOpen]
      omega
  | false =>
      have refused : live.discovery.post answer = live.discovery := by
        simp [Discovery.post, Dispatcher.post, isOpen]
      rw [refused]
      exact Nat.le_add_right _ _

/-- A search that is asked for adds no more than its callback. -/
theorem backlog_ask (options : Options) (callback : Callback) (live : Live) :
    (live.ask options (some callback)).2.backlog ≤ live.backlog + callback.size := by
  unfold ask
  cases verdict : live.discovery.verdict options with
  | busy =>
      rw [searchWith_of_busy verdict]
      exact backlog_post _ live
  | missing =>
      rw [searchWith_of_missing verdict]
      exact backlog_post _ live
  | accepted number methods =>
      rcases verdict_eq_accepted.mp verdict with ⟨free, -⟩
      rw [searchWith_of_accepted verdict]
      simp only [backlog, due, free, Option.map_some, Option.map_none, Option.getD_some,
        Option.getD_none]
      omega

/-- A callback that is being called asks for one search after the other. -/
theorem nested_below (live : Live) : live.nested = ([], live) ∨ live.nested.2.IsBelow live := by
  unfold nested
  split
  · exact .inl rfl
  · rename_i options callback rest calling
    right
    have fewer := backlog_ask options callback { live with calling := rest }
    have same : (ask options (some callback) { live with calling := rest }).2.calling = rest := rfl
    rw [isBelow_iff, same, calling]
    have total : backlog { live with calling := rest } + callback.size = live.backlog := by
      simp only [backlog, due, calling, Callback.sizes]
      omega
    simp only [List.length_cons]
    omega

/-- The dispatcher is shut down once. -/
theorem shut_below (live : Live) : live.shut = live ∨ live.shut.IsBelow live := by
  unfold shut
  split
  · cases isOpen : live.discovery.dispatcher.isOpen with
    | true =>
        right
        apply IsBelow.of_closing
        · exact Nat.le_refl _
        · rfl
        · exact Nat.le_refl _
        · simp [closing, Dispatcher.shut, isOpen]
    | false =>
        left
        rcases live with ⟨discovery, taken, finishing, calling, isDropped⟩
        rcases discovery with ⟨registry, identify, accepted, parked, job, session, waiting, is⟩
        obtain rfl : is = false := isOpen
        rfl
  · exact .inl rfl

/-- A turn of its own changes nothing in a discovery, or leaves less to do. -/
theorem turn_below {next : Turn} (own : next.isOwn = true) (live : Live) :
    live.turn next = ([], live) ∨ (live.turn next).2.IsBelow live := by
  cases next with
  | search | drop => cases own
  | job next =>
      apply work_below
      rintro rfl
      cases own
  | take =>
      rcases take_below live with same | less
      · simp [turn, same]
      · exact .inr less
  | announce place => exact announce_below place live
  | post place =>
      rcases post_below place live with same | less
      · simp [turn, same]
      · exact .inr less
  | call => exact call_below live
  | nested => exact nested_below live
  | shut =>
      rcases shut_below live with same | less
      · simp [turn, same]
      · exact .inr less

/-- By itself, a discovery comes to rest. -/
theorem exists_rests (live : Live) :
    ∃ turns, (∀ next ∈ turns, next.isOwn = true) ∧ (live.workBy turns).2.Rests :=
  exists_play_rests wellFounded_isBelow (fun _ own live => turn_below own live) live

end Live

end BridgeFinder.Discovery
