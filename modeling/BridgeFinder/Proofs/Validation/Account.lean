import BridgeFinder.Proofs.Task.Always
import BridgeFinder.Proofs.Task.Depth
import BridgeFinder.Proofs.Task.Token
import BridgeFinder.Proofs.Validation.Ledger

/-!
# The account of a validation

Whatever the schedule, a validation keeps its ledger.  It returns only when every check
has been counted, and unless it waits for an answer that never comes, it does return.
-/

namespace BridgeFinder.Validation

open BridgeFinder.Task (Course Firing Mark Run)

variable {validation : Validation}

/-! ## Where a validation stands -/

/-- A check that cannot move has been counted, or it has sent its request and waits for an answer
that never comes. -/
theorem silent_of_moves_eq_nil {isCancelled : Bool} {check : Check}
    (stuck : validation.moves isCancelled check = []) (uncounted : check.isCounted = false) :
    isCancelled = false ∧ check.sent = true ∧ validation.answer check.address = .silence := by
  rcases check with ⟨address, sent, stage⟩
  cases stage with
  | asking =>
      cases isCancelled with
      | true => cases stuck
      | false =>
          cases sent with
          | false => cases stuck
          | true =>
              simp only [moves, Bool.false_eq_true, if_false, if_true, List.nil_append,
                ite_eq_left_iff, reduceCtorEq, imp_false, Decidable.not_not] at stuck
              exact ⟨rfl, rfl, stuck⟩
  | resolved | told | kept => cases stuck
  | counted => cases uncounted

section

variable {addresses : List Net.Ipv4} {signals : List Activity} {token : Bool} {batch : Batch}

/-- A validation waits for an answer that never comes: it has not been cancelled, and has asked
everywhere. -/
structure Waits (validation : Validation) (token : Bool) (checks : List Check) : Prop where
  uncancelled : token = false
  sent : ∀ check ∈ checks, check.sent = true
  silent : ∃ check ∈ checks, validation.answer check.address = .silence

/-- A validation that cannot go on waits for an answer that never comes. -/
theorem Ledger.waits_of_ways_eq_nil
    (ledger : Ledger validation addresses signals token batch)
    (stuck : validation.ways token batch = []) :
    batch.isCancelled = false ∧ Waits validation token batch.checks := by
  simp only [ways, List.append_eq_nil_iff, List.flatMap_eq_nil_iff, List.map_eq_nil_iff] at stuck
  rcases stuck with ⟨⟨going, uncancelled⟩, stuck⟩
  have outstanding : batch.outstanding ≠ 0 := by
    intro none
    simp [ledger.isOver.mpr none] at going
  obtain ⟨check, member, uncounted⟩ : ∃ check ∈ batch.checks, check.isCounted = false := by
    by_contra none
    have all : batch.checks.countP Check.isCounted = batch.checks.length := by
      rw [List.countP_eq_length]
      intro check member
      simpa using fun uncounted => none ⟨check, member, uncounted⟩
    have balance := ledger.counted
    omega
  have none {check : Check} (member : check ∈ batch.checks) :
      validation.moves batch.isCancelled check = [] := by
    rcases List.mem_iff_getElem?.mp member with ⟨place, here⟩
    exact stuck (check, place) (List.mk_mem_zipIdx_iff_getElem?.mpr here)
  rcases silent_of_moves_eq_nil (none member) uncounted with ⟨open', -, silent⟩
  constructor
  · exact open'
  · constructor
    · cases token with
      | false => rfl
      | true => simp [open'] at uncancelled
    · intro check member
      cases counted : check.isCounted with
      | false => exact (silent_of_moves_eq_nil (none member) counted).2.1
      | true => exact ledger.sent_of_isCounted open' member counted
    · exact ⟨check, member, silent⟩

/-- A validation may return only when it is over. -/
theorem isOver_of_finish_mem_ways (member : .finish ∈ validation.ways token batch) :
    batch.isOver = true := by
  simp only [ways, List.mem_append, List.mem_flatMap, List.mem_map] at member
  rcases member with (found | found) | ⟨_, _, _, _, found⟩
  · split at found
    · assumption
    · cases found
  · split at found <;> simp at found
  · cases found

/-- Where a run of a validation stands: some signals are pending, and with them the
ledger is that of the batch. -/
structure Stands (validation : Validation) (addresses : List Net.Ipv4) (signals : List Activity)
    (last : Run Activity (List Bridge)) (pending : List Activity) (batch : Batch) : Prop where
  ledger : Ledger validation addresses (signals ++ pending) last.token batch
  ended : ∀ output, last.task = .done output →
    pending = [] ∧ batch.isOver = true ∧ output = batch.confirmed
  waits : last.Rests → (∃ output, last.task = .done output) ∨
    pending = [] ∧ Waits validation last.token batch.checks

/-- A validation that makes no move stands as before. -/
theorem Stands.of_firing {marks : List (Mark Activity)} {after : Bool}
    {task : Task Activity (List Bridge)} (ledger : Ledger validation addresses signals token batch)
    (firing : Task.Firing token marks after) (going : task.output? = none)
    (waits : Run.Rests ⟨after, task⟩ → Waits validation after batch.checks) :
    Stands validation addresses (signals ++ Task.signals marks) ⟨after, task⟩ [] batch := by
  constructor
  · simpa [firing.signals_eq] using ledger.fire firing.token_mono
  · rintro output rfl
    cases going
  · intro rests
    exact .inr ⟨rfl, waits rests⟩

/-- A validation that returns has come to the end of its ledger. -/
theorem Stands.of_finish {marks : List (Mark Activity)} {last : Run Activity (List Bridge)}
    (ledger : Ledger validation addresses signals token batch)
    (closed : batch.isOver = true) (course : Course ⟨token, .done batch.confirmed⟩ marks last) :
    Stands validation addresses (signals ++ Task.signals marks) last [] batch := by
  rcases course.done_cases with ⟨after, firing, rfl⟩
  constructor
  · simpa [firing.signals_eq] using ledger.fire firing.token_mono
  · rintro output ⟨⟩
    exact ⟨rfl, closed, rfl⟩
  · intro _
    exact .inl ⟨_, rfl⟩

/-- A validation that still has signals to let be observed stands with them pending. -/
theorem Stands.of_emitting {seen row pending : List Activity} {signal : Activity} {after : Bool}
    {next : Task Activity (List Bridge)}
    (ledger : Ledger validation addresses (signals ++ row) token batch)
    (split : row = seen ++ signal :: pending) (later : token = true → after = true) :
    Stands validation addresses (signals ++ seen) ⟨after, .emitAll (signal :: pending) next⟩
      (signal :: pending) batch := by
  constructor
  · rw [List.append_assoc, ← split]
    exact ledger.fire later
  · nofun
  · intro rests
    cases rests 0

/-- A validation that goes on keeps its ledger. -/
theorem go_stands {marks : List (Mark Activity)} {last : Run Activity (List Bridge)}
    (ledger : Ledger validation addresses signals token batch)
    (course : Course ⟨token, validation.go batch⟩ marks last) :
    ∃ pending batch', Stands validation addresses (signals ++ Task.signals marks) last pending
      batch' := by
  induction rank : batch.rank using Nat.strongRecOn generalizing batch signals token marks with
  | ind _ ih =>
  subst rank
  rw [go] at course
  rcases course.check_cases with
    ⟨after, firing, rfl⟩ | ⟨before, found, more, firing, rfl, looked⟩
  · apply Exists.intro []
    apply Exists.intro batch
    apply Stands.of_firing ledger firing rfl
    intro rests
    cases rests 0
  have ledger := ledger.fire firing.token_mono
  simp only [Task.signals_append, firing.signals_eq, List.nil_append, Task.signals_cons_looked]
  rcases looked.among_cases with
    ⟨stuck, idle⟩ | ⟨after, firing, rfl, going, moves⟩ |
      ⟨⟨way, member⟩, -, before, after, more, firing, rfl, picked⟩
  · rcases ledger.waits_of_ways_eq_nil (List.attach_eq_nil_iff.mp stuck) with ⟨going, waits⟩
    obtain rfl := waits.uncancelled
    rw [if_neg (by simp [going])] at idle
    rcases idle.stall_cases with ⟨after, firing, rfl⟩ | ⟨before, more, firing, rfl, left⟩
    · apply Exists.intro []
      apply Exists.intro batch
      apply Stands.of_firing ledger firing rfl
      intro rests
      cases after with
      | false => exact waits
      | true => cases rests 0
    · have ledger := (ledger.fire firing.token_mono).cancel
      rw [Task.signals_append, firing.signals_eq]
      exact ih _ (Batch.rank_cancel_lt going) ledger left rfl
  · exact ⟨[], batch, .of_firing ledger firing going fun rests => absurd rests moves⟩
  have ledger := ledger.fire firing.token_mono
  rw [Task.signals_append, firing.signals_eq, List.nil_append]
  cases way with
  | finish =>
      have closed := isOver_of_finish_mem_ways member
      exact ⟨[], batch, .of_finish ledger closed picked⟩
  | cancel =>
      rcases validation.isCancelled_of_cancel_mem_ways member with ⟨cancelled, going⟩
      obtain rfl := firing.token_mono cancelled
      exact ih _ (Batch.rank_cancel_lt going) ledger.cancel picked rfl
  | advance place move =>
      rcases validation.exists_of_advance_mem_ways member with ⟨check, here, moved⟩
      have advanced := ledger.advance here (gains_of_mem_moves moved)
      rcases picked.emitAll_cases with
        ⟨signal, pending, after', split, rfl⟩ | ⟨before', after', more', emitted, all, rfl, left⟩
      · exact ⟨_, _, .of_emitting advanced split (Course.token_of_token picked)⟩
      · have less := Batch.rank_advance_lt here (validation.rank_lt_of_mem_moves moved)
        rw [Task.signals_append, ← List.append_assoc, all]
        exact ih _ less (advanced.fire (Course.token_of_token emitted)) left rfl

end

/-! ## What a validation comes to -/

/-- How far a validation of candidates has come.  Before it begins it looks at its token
once, and it does not begin if it has been cancelled by then or if no candidate has an
address. -/
inductive Progress (validation : Validation) (candidates : List Bridge) :
    List (Mark Activity) → Run Activity (List Bridge) → Prop where
  | unasked {marks : List (Mark Activity)} {after : Bool} (silent : Task.signals marks = [])
      (unseen : marks.filterMap Mark.look? = []) :
      Progress validation candidates marks ⟨after, validation.validate candidates⟩
  | skipped {marks : List (Mark Activity)} {found after : Bool}
      (silent : Task.signals marks = []) (seen : (marks.filterMap Mark.look?).head? = some found)
      (idle : found = true ∨ addresses candidates = []) :
      Progress validation candidates marks ⟨after, .done []⟩
  | begun {marks : List (Mark Activity)} {last : Run Activity (List Bridge)}
      {pending : List Activity} {batch : Batch}
      (seen : (marks.filterMap Mark.look?).head? = some false)
      (stands : Stands validation (addresses candidates) (Task.signals marks) last pending batch) :
      Progress validation candidates marks last

/-- Every run of a validation has come so far. -/
theorem progress_of_course {candidates : List Bridge} {token : Bool}
    {marks : List (Mark Activity)} {last : Run Activity (List Bridge)}
    (course : Course ⟨token, validation.validate candidates⟩ marks last) :
    Progress validation candidates marks last := by
  rcases course.check_cases with
    ⟨after, firing, rfl⟩ | ⟨before, found, more, firing, rfl, looked⟩
  · exact .unasked firing.signals_eq firing.looks_eq
  have seen : ((before ++ .looked found :: more).filterMap Mark.look?).head? = some found := by
    simp [firing.looks_eq, Mark.look?]
  by_cases idle : (addresses candidates).isEmpty || found
  · simp only [idle, if_true] at looked
    rcases looked.done_cases with ⟨after, still, rfl⟩
    have silent : Task.signals (before ++ .looked found :: more) = [] := by
      simp [firing.signals_eq, still.signals_eq]
    exact .skipped silent seen (by simpa [or_comm] using idle)
  · simp only [idle] at looked
    obtain ⟨some, rfl⟩ : addresses candidates ≠ [] ∧ found = false := by simpa using idle
    rcases go_stands (.ofAddresses some) looked with ⟨pending, batch, stands⟩
    have stands : Stands validation (addresses candidates)
        (Task.signals (before ++ .looked false :: more)) last pending batch := by
      simpa [firing.signals_eq] using stands
    exact .begun seen stands

section

variable {candidates : List Bridge} {token : Bool} {marks : List (Mark Activity)}
  {last : Run Activity (List Bridge)}

/-- No address is ever asked more often than it was given. -/
theorem requested_of_course (course : Course ⟨token, validation.validate candidates⟩ marks last) :
    ((Task.signals marks).filterMap Activity.url?).Subperm
      ((addresses candidates).map (url validation.configPath)) := by
  cases progress_of_course course with
  | unasked silent | skipped silent => simp [silent]
  | begun _ stands =>
      apply List.Subperm.trans _ stands.ledger.requested_subperm
      apply List.Sublist.subperm
      rw [List.filterMap_append]
      exact List.sublist_append_left _ _

/-- A validation that is cancelled at the start does nothing and returns nothing. -/
theorem skipped_of_course (course : Course ⟨token, validation.validate candidates⟩ marks last)
    (seen : (marks.filterMap Mark.look?).head? = some true) :
    Task.signals marks = [] ∧ last.task = .done [] := by
  cases progress_of_course course with
  | unasked _ unseen => simp [unseen] at seen
  | skipped silent => exact ⟨silent, rfl⟩
  | begun looked => simp [looked] at seen

/-- A validation that makes no move and has not been cancelled has asked every address. -/
theorem asked_of_course (course : Course ⟨token, validation.validate candidates⟩ marks last)
    (rests : last.Rests) (uncancelled : last.token = false) :
    ((Task.signals marks).filterMap Activity.url?).Perm
      ((addresses candidates).map (url validation.configPath)) := by
  cases progress_of_course course with
  | unasked => cases rests 0
  | skipped silent seen idle =>
      have none : addresses candidates = [] := by
        apply idle.resolve_left
        rintro rfl
        have fired := course.token_of_look (List.mem_of_head? seen)
        rw [uncancelled] at fired
        cases fired
      simp [silent, none]
  | @begun _ pending batch _ stands =>
      rcases stands.waits rests with ⟨output, ended⟩ | ⟨rfl, waits⟩
      · rcases stands.ended output ended with ⟨rfl, closed, -⟩
        have complete := stands.ledger.complete closed uncancelled
        rw [List.append_nil] at complete
        exact complete.1
      · have requested := stands.ledger.requested_of_sent waits.sent
        rwa [List.append_nil] at requested

/-- Every bridge that is returned is confirmed at the address of a candidate. -/
theorem confirmed_of_course (course : Course ⟨token, validation.validate candidates⟩ marks last)
    {output : List Bridge} (ended : last.task = .done output) :
    output.Subperm ((addresses candidates).filterMap validation.confirmed?) := by
  cases progress_of_course course with
  | unasked => cases ended
  | skipped =>
      obtain rfl : [] = output := Task.done.inj ended
      exact List.nil_subperm
  | begun _ stands =>
      rcases stands.ended output ended with ⟨rfl, -, rfl⟩
      exact stands.ledger.confirmed_subperm

end

/-- Only the addresses of candidates are asked, and only bridges that are confirmed there
are returned. -/
theorem always_validate (candidates : List Bridge) :
    Task.Always
      (fun activity => ∀ page, activity.url? = some page →
        ∃ address ∈ addresses candidates, page = url validation.configPath address)
      (fun output => ∀ bridge ∈ output,
        ∃ address ∈ addresses candidates, validation.confirmed? address = some bridge)
      (validation.validate candidates) := by
  intro token marks last course
  constructor
  · intro activity member page requested
    have asked := (requested_of_course course).subset
      (List.mem_filterMap.mpr ⟨activity, member, requested⟩)
    rcases List.mem_map.mp asked with ⟨address, given, rfl⟩
    exact ⟨address, given, rfl⟩
  · intro output ended bridge member
    exact List.mem_filterMap.mp ((confirmed_of_course course ended).subset member)

end BridgeFinder.Validation
