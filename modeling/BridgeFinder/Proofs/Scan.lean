import BridgeFinder.Proofs.Task.Always
import BridgeFinder.Proofs.Task.Ending
import BridgeFinder.Scan

/-!
# What a scan finds

Every attempt is noticed once, whichever way a scan goes, and the hosts that accept are sorted in
the end.  So all schedules, all limits that a scan can have and all orders of the hosts lead to the
same result.  There is always a permit for an attempt that waits while no other one is under way, so
a scan ends.  It looks at its token before each step; once the token is fired, it ends with nothing.
-/

namespace BridgeFinder.Scan

open BridgeFinder.Task (Always Course Mark NeverHangs Run)

variable {permits : Permits} {accepts : Net.Ipv4 → Bool} {attempts next : Attempts} {host : Net.Ipv4}
  {token : Bool} {marks : List (Mark Activity)} {last : Run Activity (List Net.Ipv4)}

/-! ## The ways of a scan -/

theorem exists_pick {α : Type} {list : List α} {picked : α} (member : picked ∈ list) :
    ∃ left, (picked, left) ∈ picks list := by
  induction list with
  | nil => cases member
  | cons first rest ih =>
      rcases List.mem_cons.mp member with rfl | later
      · exact ⟨rest, List.mem_cons_self⟩
      · rcases ih later with ⟨left, inner⟩
        exact ⟨first :: left, List.mem_cons_of_mem _ (List.mem_map.mpr ⟨_, inner, rfl⟩)⟩

theorem picks_eq_nil {α : Type} {list : List α} (none : picks list = []) : list = [] := by
  cases list with
  | nil => rfl
  | cons first rest => cases none

/-- An attempt that is permitted or over is still to be noticed. -/
theorem left_of_proceed (member : .proceed next ∈ attempts.ways permits) :
    next.left.Perm attempts.left ∧ next.reached = attempts.reached := by
  simp only [Attempts.ways, Attempts.permitted, Attempts.ended, List.mem_append, List.mem_map,
    Way.proceed.injEq, exists_eq_right, reduceCtorEq, and_false, exists_false, or_false] at member
  rcases member with begun | ⟨⟨host, left⟩, inner, rfl⟩
  · split at begun
    · rcases List.mem_map.mp begun with ⟨⟨host, left⟩, inner, rfl⟩
      have moved : (left ++ host :: attempts.underWay).Perm
          (attempts.waiting ++ attempts.underWay) :=
        List.perm_middle.trans ((perm_of_mem_picks inner).append_right _)
      exact ⟨moved.append_right _, rfl⟩
    · cases begun
  · have moved : (left ++ host :: attempts.finished).Perm
        (attempts.underWay ++ attempts.finished) :=
      List.perm_middle.trans ((perm_of_mem_picks inner).append_right _)
    constructor
    · simpa [Attempts.left] using moved.append_left attempts.waiting
    · rfl

/-- What is noticed was left before. -/
theorem left_of_notice (member : .notice host next ∈ attempts.ways permits) :
    (host :: next.left).Perm attempts.left ∧ next.reached = attempts.reached := by
  simp only [Attempts.ways, List.mem_append, List.mem_map, reduceCtorEq, and_false, exists_false,
    false_or, Way.notice.injEq] at member
  rcases member with ⟨⟨_, left⟩, inner, rfl, rfl⟩
  constructor
  · exact List.perm_middle.symm.trans ((perm_of_mem_picks inner).append_left _)
  · rfl

/-- A scan is stuck only when nothing is left: while no attempt is under way, there is a permit for
one that waits. -/
theorem left_of_stuck (stuck : attempts.ways permits = []) : attempts.left = [] := by
  simp only [Attempts.ways, Attempts.ended, List.append_eq_nil_iff, List.map_eq_nil_iff] at stuck
  rcases stuck with ⟨⟨permitted, ended⟩, noticed⟩
  have underWay := picks_eq_nil ended
  have free : attempts.underWay.length < permits.count := by
    rw [underWay]
    exact permits.positive
  rw [Attempts.permitted, if_pos free, List.map_eq_nil_iff] at permitted
  simp [Attempts.left, picks_eq_nil permitted, underWay, picks_eq_nil noticed]

/-! ## The steps of a scan -/

/-- Hosts in ascending order. -/
def ascending (hosts : List Net.Ipv4) : List Net.Ipv4 :=
  hosts.mergeSort fun a b => decide (a ≤ b)

/-- What a scan does when it goes on in one of its ways. -/
def after (permits : Permits) (accepts : Net.Ipv4 → Bool) : Way → Task Activity (List Net.Ipv4)
  | .proceed next => go permits accepts next
  | .notice host next =>
      if accepts host then .emit (.reached host) (go permits accepts (next.reach host))
      else go permits accepts next

theorem go_eq (permits : Permits) (accepts : Net.Ipv4 → Bool) (attempts : Attempts) :
    go permits accepts attempts = .check fun cancelled =>
      if cancelled then .done []
      else
        .among (attempts.ways permits).attach
          (if attempts.left.isEmpty then .done (ascending attempts.reached) else .stall (.done []))
          fun way => after permits accepts way.1 := by
  rw [go]
  congr 1
  funext cancelled
  split
  · rfl
  · congr 1
    funext ⟨way, member⟩
    cases way <;> rfl

/-- With its token fired, a task ends with nothing, if it ends. -/
def Voids (task : Task Activity (List Net.Ipv4)) : Prop :=
  ∀ marks last output, Course ⟨true, task⟩ marks last → last.task = .done output → output = []

/-- A scan whose token has been fired does nothing and ends with nothing. -/
theorem skipped_of_course (course : Course ⟨true, go permits accepts attempts⟩ marks last) :
    Task.signals marks = [] ∧ ∀ output, last.task = .done output → output = [] := by
  rw [go_eq] at course
  rcases course.check_cases with ⟨after, firing, rfl⟩ | ⟨before, found, more, firing, rfl, looked⟩
  · exact ⟨firing.signals_eq, nofun⟩
  obtain rfl : found = true := firing.token_mono rfl
  rcases looked.done_cases with ⟨after, firing', rfl⟩
  constructor
  · simp [firing.signals_eq, firing'.signals_eq]
  · rintro output ⟨⟩
    rfl

theorem voids_go : Voids (go permits accepts attempts) :=
  fun _ _ output course => (skipped_of_course course).2 output

theorem voids_emit {signal : Activity} {task : Task Activity (List Net.Ipv4)} (voids : Voids task) :
    Voids (.emit signal task) := by
  intro marks last output course ended
  rcases course.emit_cases with ⟨after, firing, rfl⟩ | ⟨before, after, more, firing, rfl, later⟩
  · cases ended
  · obtain rfl : after = true := firing.token_mono rfl
    exact voids _ _ output later ended

theorem voids_after (way : Way) : Voids (after permits accepts way) := by
  cases way with
  | proceed next => exact voids_go
  | notice host next =>
      rw [after]
      split
      · exact voids_emit voids_go
      · exact voids_go

/-- How far a scan has come in a run: it has not gone on yet, it has ended, or it has gone on in
one of its ways. -/
inductive Round (permits : Permits) (accepts : Net.Ipv4 → Bool) (attempts : Attempts)
    (marks : List (Mark Activity)) : Run Activity (List Net.Ipv4) → Prop where
  | still {last : Run Activity (List Net.Ipv4)} (silent : Task.signals marks = [])
      (going : last.task.output? = none) (voids : Voids last.task) :
      Round permits accepts attempts marks last
  | cancelled (silent : Task.signals marks = []) :
      Round permits accepts attempts marks ⟨true, .done []⟩
  | ended {token : Bool} (silent : Task.signals marks = []) (none : attempts.left = []) :
      Round permits accepts attempts marks ⟨token, .done (ascending attempts.reached)⟩
  | on {token : Bool} {more : List (Mark Activity)} {last : Run Activity (List Net.Ipv4)}
      (way : Way) (member : way ∈ attempts.ways permits)
      (same : Task.signals marks = Task.signals more)
      (later : Course ⟨token, after permits accepts way⟩ more last) :
      Round permits accepts attempts marks last

theorem round_of_course (course : Course ⟨token, go permits accepts attempts⟩ marks last) :
    Round permits accepts attempts marks last := by
  have looking := course
  rw [go_eq] at looking
  rcases looking.check_cases with
    ⟨_, firing, rfl⟩ | ⟨before, found, more, firing, rfl, looked⟩
  · apply Round.still firing.signals_eq rfl
    rw [← go_eq]
    exact voids_go
  have silent (marks : List (Mark Activity)) :
      Task.signals (before ++ .looked found :: marks) = Task.signals marks := by
    simp [firing.signals_eq]
  cases found with
  | true =>
      rcases looked.done_cases with ⟨token, firing, rfl⟩
      obtain rfl : token = true := firing.token_mono rfl
      exact .cancelled ((silent more).trans firing.signals_eq)
  | false =>
      rw [if_neg Bool.false_ne_true] at looked
      rcases ways : (attempts.ways permits).attach with _ | ⟨first, rest⟩
      · have none := left_of_stuck (List.attach_eq_nil_iff.mp ways)
        rw [ways, if_pos (by simp [none])] at looked
        rcases looked.done_cases with ⟨token, firing, rfl⟩
        exact .ended ((silent more).trans firing.signals_eq) none
      · rw [ways] at looked
        rcases looked.pick_cases with
          ⟨_, firing, rfl⟩ | ⟨place, lead, token, more, firing, rfl, picked⟩
        · apply Round.still ((silent more).trans firing.signals_eq) rfl
          intro marks last output course ended
          rcases course.pick_cases with
            ⟨_, _, rfl⟩ | ⟨place, _, token, _, firing, rfl, picked⟩
          · cases ended
          · obtain rfl : token = true := firing.token_mono rfl
            exact voids_after _ _ _ output picked ended
        · have same : Task.signals (lead ++ more) = Task.signals more := by
            simp [firing.signals_eq]
          exact .on _ (first :: rest)[place].2 ((silent _).trans same) picked

/-! ## Where a scan stands -/

/-- Where a run of a scan stands that began with the given attempts and has found some hosts
since. -/
inductive Stands (accepts : Net.Ipv4 → Bool) (attempts : Attempts) (found : List Net.Ipv4) :
    Run Activity (List Net.Ipv4) → Prop where
  | underWay {last : Run Activity (List Net.Ipv4)}
      (part : found.Subperm (attempts.left.filter accepts)) (going : last.task.output? = none)
      (voids : Voids last.task) : Stands accepts attempts found last
  | cancelled (part : found.Subperm (attempts.left.filter accepts)) :
      Stands accepts attempts found ⟨true, .done []⟩
  | returned {token : Bool} (all : found.Perm (attempts.left.filter accepts)) :
      Stands accepts attempts found ⟨token, .done (ascending (attempts.reached ++ found))⟩

namespace Stands

variable {found : List Net.Ipv4}

theorem part (stands : Stands accepts attempts found last) :
    found.Subperm (attempts.left.filter accepts) := by
  cases stands with
  | underWay part | cancelled part => exact part
  | returned all => exact all.subperm

/-- A scan that has ended was cancelled, or it has found all hosts that accept. -/
theorem output (stands : Stands accepts attempts found last) {output : List Net.Ipv4}
    (ended : last.task = .done output) :
    last.token = true ∧ output = [] ∨ found.Perm (attempts.left.filter accepts) ∧
      output = ascending (attempts.reached ++ found) := by
  cases stands with
  | underWay _ going _ =>
      rw [ended] at going
      cases going
  | cancelled => exact .inl ⟨rfl, (Task.done.inj ended).symm⟩
  | returned all => exact .inr ⟨all, (Task.done.inj ended).symm⟩

/-- A step by which no host is found makes no difference. -/
theorem passed (stands : Stands accepts next found last)
    (same : (next.left.filter accepts).Perm (attempts.left.filter accepts))
    (kept : next.reached = attempts.reached) : Stands accepts attempts found last := by
  cases stands with
  | underWay part going voids => exact .underWay (part.trans same.subperm) going voids
  | cancelled part => exact .cancelled (part.trans same.subperm)
  | returned all =>
      rw [kept]
      exact .returned (all.trans same)

/-- A host that is found comes before those that are found later. -/
theorem reached (stands : Stands accepts (next.reach host) found last)
    (same : (host :: next.left.filter accepts).Perm (attempts.left.filter accepts))
    (kept : next.reached = attempts.reached) : Stands accepts attempts (host :: found) last := by
  have more (part : found.Subperm (next.left.filter accepts)) :
      (host :: found).Subperm (attempts.left.filter accepts) :=
    ((List.subperm_cons host).mpr part).trans same.subperm
  cases stands with
  | underWay part going voids => exact .underWay (more part) going voids
  | cancelled part => exact .cancelled (more part)
  | returned all =>
      have order : (next.reach host).reached ++ found = attempts.reached ++ host :: found := by
        rw [Attempts.reach, kept, List.append_assoc, List.singleton_append]
      rw [order]
      exact .returned ((all.cons host).trans same)

end Stands

/-- What a scan finds after one of its ways belongs to what it finds in all. -/
theorem after_stands {way : Way} (member : way ∈ attempts.ways permits)
    (later : ∀ {next token marks}, next.rank < attempts.rank →
      Course ⟨token, go permits accepts next⟩ marks last →
        ∃ found, Task.signals marks = found.map .reached ∧ Stands accepts next found last)
    (course : Course ⟨token, after permits accepts way⟩ marks last) :
    ∃ found, Task.signals marks = found.map .reached ∧ Stands accepts attempts found last := by
  have less := rank_lt_of_mem_ways member
  cases way with
  | proceed next =>
      rcases left_of_proceed member with ⟨same, kept⟩
      rcases later less course with ⟨found, shown, stands⟩
      exact ⟨found, shown, stands.passed (same.filter accepts) kept⟩
  | notice host next =>
      rcases left_of_notice member with ⟨same, kept⟩
      have same := same.filter accepts
      cases accepted : accepts host with
      | false =>
          rw [List.filter_cons_of_neg (by simp [accepted])] at same
          rw [after, if_neg (by simp [accepted])] at course
          rcases later less course with ⟨found, shown, stands⟩
          exact ⟨found, shown, stands.passed same kept⟩
      | true =>
          rw [List.filter_cons_of_pos accepted] at same
          rw [after, if_pos accepted] at course
          rcases course.emit_cases with
            ⟨_, firing, rfl⟩ | ⟨before, token, more, firing, rfl, emitted⟩
          · exact ⟨[], firing.signals_eq, .underWay List.nil_subperm rfl (voids_emit voids_go)⟩
          · have less : (next.reach host).rank < attempts.rank := less
            rcases later less emitted with ⟨found, shown, stands⟩
            have told : Task.signals (before ++ .signal (.reached host) :: more) =
                (host :: found).map .reached := by
              simp [firing.signals_eq, shown]
            exact ⟨host :: found, told, stands.reached same kept⟩

/-- Whatever the schedule, a scan has found some of the hosts that accept, and when it has ended
uncancelled, all of them. -/
theorem go_stands (course : Course ⟨token, go permits accepts attempts⟩ marks last) :
    ∃ found, Task.signals marks = found.map .reached ∧ Stands accepts attempts found last := by
  induction rank : attempts.rank using Nat.strongRecOn generalizing attempts token marks with
  | ind _ ih =>
  subst rank
  cases round_of_course course with
  | still silent going voids => exact ⟨[], silent, .underWay List.nil_subperm going voids⟩
  | cancelled silent => exact ⟨[], silent, .cancelled List.nil_subperm⟩
  | ended silent none =>
      have all : ([] : List Net.Ipv4).Perm (attempts.left.filter accepts) := by simp [none]
      refine ⟨[], silent, ?_⟩
      simpa using Stands.returned all
  | on way member same later =>
      rw [same]
      exact after_stands member (fun less course => ih _ less course rfl) later

/-- There is a permit whenever one is needed, so a scan never hangs. -/
theorem neverHangs_go : NeverHangs (go permits accepts attempts) := by
  induction rank : attempts.rank using Nat.strongRecOn generalizing attempts with
  | ind _ ih =>
  subst rank
  rw [go_eq]
  apply NeverHangs.check
  intro cancelled
  split
  · exact .done []
  apply NeverHangs.among
  · intro stuck
    rw [if_pos (by simp [left_of_stuck (List.attach_eq_nil_iff.mp stuck)])]
    exact .done _
  · rintro ⟨way, member⟩ -
    have less := rank_lt_of_mem_ways member
    cases way with
    | proceed next => exact ih _ less rfl
    | notice host next =>
        simp only [after]
        split
        · exact .emit (ih _ less rfl)
        · exact ih _ less rfl

/-! ## Orders of the attempts -/

/-- A scan may go on in each of its ways. -/
theorem course_of_way {way : Way} (member : way ∈ attempts.ways permits)
    (course : Course ⟨false, after permits accepts way⟩ marks last) :
    Course ⟨false, go permits accepts attempts⟩ (.looked false :: marks) last := by
  rw [go_eq]
  apply Course.check
  rw [if_neg Bool.false_ne_true]
  exact Course.among_of_mem (List.mem_attach _ ⟨way, member⟩) course

/-- The attempts may be over in any order, even if there is a single permit. -/
theorem exists_course {order hosts reached : List Net.Ipv4} (same : order.Perm hosts) :
    ∃ marks, Course ⟨false, go permits accepts { waiting := hosts, reached }⟩ marks
        ⟨false, .done (ascending (reached ++ order.filter accepts))⟩ ∧
      Task.signals marks = (order.filter accepts).map .reached := by
  induction order generalizing hosts reached with
  | nil =>
      obtain rfl := same.nil_eq
      have stuck : Attempts.ways permits { waiting := [], reached } = [] := by
        simp [Attempts.ways, Attempts.permitted, Attempts.ended, picks]
      refine ⟨[.looked false], ?_, rfl⟩
      rw [go_eq, stuck]
      apply Course.check
      rw [List.filter_nil, List.append_nil]
      exact .rest _
  | cons host order ih =>
      rcases exists_pick (same.subset List.mem_cons_self) with ⟨left, picked⟩
      have others : order.Perm left :=
        (same.trans (perm_of_mem_picks picked).symm).cons_inv
      have permitted : .proceed { waiting := left, underWay := [host], reached } ∈
          Attempts.ways permits { waiting := hosts, reached } := by
        simpa [Attempts.ways, Attempts.permitted, Attempts.ended, permits.positive] using picked
      have ended : .proceed { waiting := left, finished := [host], reached } ∈
          Attempts.ways permits { waiting := left, underWay := [host], reached } := by
        simp [Attempts.ways, Attempts.ended, picks]
      have noticed : .notice host { waiting := left, reached } ∈
          Attempts.ways permits { waiting := left, finished := [host], reached } := by
        simp [Attempts.ways, picks]
      have steps {marks : List (Mark Activity)} {last : Run Activity (List Net.Ipv4)}
          (course : Course ⟨false, after permits accepts (.notice host { waiting := left, reached })⟩
            marks last) :=
        course_of_way permitted (course_of_way ended (course_of_way noticed course))
      cases accepted : accepts host with
      | false =>
          rcases @ih left reached others with ⟨marks, course, shown⟩
          rw [List.filter_cons_of_neg (by simp [accepted])]
          refine ⟨_, steps ?_, shown⟩
          rw [after, if_neg (by simp [accepted])]
          exact course
      | true =>
          rcases @ih left (reached ++ [host]) others with ⟨marks, course, shown⟩
          rw [List.append_assoc, List.singleton_append] at course
          rw [List.filter_cons_of_pos accepted, List.map_cons, ← shown]
          have told : Course
              ⟨false, after permits accepts (.notice host { waiting := left, reached })⟩
              (.signal (.reached host) :: marks)
              ⟨false, .done (ascending (reached ++ host :: order.filter accepts))⟩ := by
            rw [after, if_pos accepted]
            exact .emit course
          exact ⟨_, steps told, rfl⟩

/-! ## The account -/

theorem perm_ascending (hosts : List Net.Ipv4) : (ascending hosts).Perm hosts :=
  List.mergeSort_perm _ _

theorem pairwise_ascending (hosts : List Net.Ipv4) : (ascending hosts).Pairwise (· ≤ ·) := by
  have trans (a b c : Net.Ipv4) :
      decide (a ≤ b) = true → decide (b ≤ c) = true → decide (a ≤ c) = true := by
    simp only [decide_eq_true_eq]
    exact Nat.le_trans
  have total (a b : Net.Ipv4) : (decide (a ≤ b) || decide (b ≤ a)) = true := by
    simp only [Bool.or_eq_true, decide_eq_true_eq]
    exact Nat.le_total _ _
  exact (List.pairwise_mergeSort trans total hosts).imp of_decide_eq_true

/-- Hosts have only one ascending order. -/
theorem eq_of_ascending {first second : List Net.Ipv4} (one : first.Pairwise (· ≤ ·))
    (other : second.Pairwise (· ≤ ·)) (same : first.Perm second) : first = second := by
  refine List.Perm.eq_of_pairwise ?_ one other same
  rintro ⟨a, _⟩ ⟨b, _⟩ - - before behind
  obtain rfl : a = b := Nat.le_antisymm before behind
  rfl

/-- A scan reaches only hosts of its list, and finds only those that accept connections. -/
theorem always_reached {limit : Nat} {hosts : List Net.Ipv4}
    {scan : Task Activity (List Net.Ipv4)} (begun : run? limit accepts hosts = some scan) :
    Always (fun activity => ∃ host ∈ hosts, activity = .reached host)
      (fun found => ∀ host ∈ found, host ∈ hosts ∧ accepts host = true) scan := by
  intro token marks last course
  rcases Option.map_eq_some_iff.mp begun with ⟨permits, -, rfl⟩
  rcases go_stands course with ⟨found, shown, stands⟩
  have listed (host : Net.Ipv4) (member : host ∈ found) : host ∈ hosts ∧ accepts host = true := by
    simpa [Attempts.left] using stands.part.subset member
  constructor
  · intro activity member
    rw [shown] at member
    rcases List.mem_map.mp member with ⟨host, inner, rfl⟩
    exact ⟨host, (listed host inner).1, rfl⟩
  · intro output ended host member
    rcases stands.output ended with ⟨-, rfl⟩ | ⟨-, rfl⟩
    · cases member
    · exact listed host ((perm_ascending _).subset member)

/-- A scan that has not ended when its token is fired ends with nothing. -/
theorem voids_of_course (course : Course ⟨token, go permits accepts attempts⟩ marks last)
    (going : last.task.output? = none) : Voids last.task := by
  rcases go_stands course with ⟨found, -, stands⟩
  cases stands with
  | underWay _ _ voids => exact voids
  | cancelled | returned => cases going

/-- The output of a scan lists the hosts that accept in ascending order, as often as they were
given. -/
structure Lists (accepts : Net.Ipv4 → Bool) (hosts output : List Net.Ipv4) : Prop where
  perm : output.Perm (hosts.filter accepts)
  ascending : output.Pairwise (· ≤ ·)

/-- Neither the order of the hosts nor anything else is left open. -/
theorem Lists.unique {hosts others first second : List Net.Ipv4} (one : Lists accepts hosts first)
    (other : Lists accepts others second) (same : others.Perm hosts) : second = first :=
  eq_of_ascending other.ascending one.ascending
    (other.perm.trans ((same.filter accepts).trans one.perm.symm))

/-- A scan that has ended uncancelled has called out the hosts that accept, and lists them. -/
theorem lists_of_course {hosts output : List Net.Ipv4}
    (course : Course ⟨token, run permits accepts hosts⟩ marks ⟨false, .done output⟩) :
    Lists accepts hosts output ∧
      ∃ found : List Net.Ipv4, Task.signals marks = found.map .reached ∧
        found.Perm (hosts.filter accepts) := by
  rcases go_stands course with ⟨found, shown, stands⟩
  rcases stands.output rfl with ⟨fired, -⟩ | ⟨all, rfl⟩
  · cases fired
  · rw [Attempts.left, List.append_nil, List.append_nil] at all
    exact ⟨⟨(perm_ascending _).trans all, pairwise_ascending _⟩, found, shown, all⟩

/-- The account of a scan of hosts, by a schedule. -/
structure Account (accepts : Net.Ipv4 → Bool) (hosts : List Net.Ipv4)
    (scan : Task Activity (List Net.Ipv4)) (turns : List Task.Turn) (token : Bool) : Prop where
  /-- Only hosts of the list that accept are called out, none more often than it is listed. -/
  sound : ∃ found : List Net.Ipv4, Task.signals (scan.runBy turns token).1 = found.map .reached ∧
    found.Subperm (hosts.filter accepts)
  /-- The scan can always be brought to its end without being cancelled. -/
  ends : ∃ more, .fire ∉ more ∧ ∃ output,
    (scan.runBy (turns ++ more) token).2 = ⟨(scan.runBy turns token).2.token, .done output⟩
  /-- It is still only there. -/
  still : (scan.runBy turns token).2.IsStill → ∃ output,
    (scan.runBy turns token).2.task = .done output
  /-- Uncancelled, it has called out all hosts that accept, as often as they are listed, and lists
  them in ascending order; neither the order of its list nor the limit nor the schedule matters. -/
  complete : ∀ output, (scan.runBy turns token).2 = ⟨false, .done output⟩ →
    Lists accepts hosts output ∧
    (∃ found : List Net.Ipv4, Task.signals (scan.runBy turns token).1 = found.map .reached ∧
      found.Perm (hosts.filter accepts)) ∧
    ∀ limit' hosts' scan' turns' output', run? limit' accepts hosts' = some scan' →
      hosts'.Perm hosts → (scan'.runBy turns' false).2 = ⟨false, .done output'⟩ →
        output' = output
  /-- The attempts may be over in any order. -/
  orders : ∀ order : List Net.Ipv4, order.Perm hosts → ∃ turns' output,
    (scan.runBy turns' false).2 = ⟨false, .done output⟩ ∧
      Task.signals (scan.runBy turns' false).1 = (order.filter accepts).map .reached
  /-- Cancelled beforehand, it calls out nothing and returns nothing. -/
  skipped : token = true → Task.signals (scan.runBy turns token).1 = [] ∧
    ∀ output, (scan.runBy turns token).2.task = .done output → output = []
  /-- Cancelled later, before it has ended, it returns nothing. -/
  voided : ∀ before later, turns = before ++ .fire :: later →
    (scan.runBy before token).2.task.output? = none →
      ∀ output, (scan.runBy turns token).2.task = .done output → output = []

/-- The account of a scan holds with all permits. -/
theorem account_run (permits : Permits) (accepts : Net.Ipv4 → Bool) (hosts : List Net.Ipv4)
    (turns : List Task.Turn) (token : Bool) :
    Account accepts hosts (run permits accepts hosts) turns token := by
  have course := Task.course_runBy turns token (run permits accepts hosts)
  have never : NeverHangs (run permits accepts hosts) := neverHangs_go
  constructor
  case sound =>
    rcases go_stands course with ⟨found, shown, stands⟩
    exact ⟨found, shown, by simpa [Attempts.left] using stands.part⟩
  case ends =>
    rcases never.exists_ended turns token with ⟨more, unfired, output, ended⟩
    have joined : ((run permits accepts hosts).runBy (turns ++ more) token).2 =
        (play Run.turn more ((run permits accepts hosts).runBy turns token).2).2 := by
      rw [Task.runBy, play_append]
      rfl
    rw [joined] at ended
    refine ⟨more, unfired, output, ?_⟩
    rw [joined, ← Run.token_play unfired, ← ended]
  case still => exact never.exists_output course
  case complete =>
    intro output ended
    rw [ended] at course
    rcases lists_of_course course with ⟨lists, found⟩
    refine ⟨lists, found, ?_⟩
    intro limit' hosts' scan' turns' output' begun same ended'
    rcases Option.map_eq_some_iff.mp begun with ⟨permits', -, rfl⟩
    have course' := Task.course_runBy turns' false (run permits' accepts hosts')
    rw [ended'] at course'
    exact lists.unique (lists_of_course course').1 same
  case orders =>
    intro order same
    rcases exists_course same with ⟨marks, course, shown⟩
    rcases course.exists_turns with ⟨turns', took⟩
    have took : (run permits accepts hosts).runBy turns' false = _ := took
    refine ⟨turns', _, congrArg Prod.snd took, ?_⟩
    rw [took]
    exact shown
  case skipped =>
    rintro rfl
    exact skipped_of_course course
  case voided =>
    rintro before later rfl going output ended
    have begun := Task.course_runBy before token (run permits accepts hosts)
    rcases Task.exists_course_of_fire before later token (run permits accepts hosts) with
      ⟨marks, rest⟩
    exact voids_of_course begun going marks _ output rest ended

/-- There are permits for every limit up to the most that there can be. -/
theorem ofLimit?_eq_some {limit : Nat} (possible : limit ≤ mostPermits) :
    ∃ permits, Permits.ofLimit? limit = some permits := by
  have fits : max limit 1 ≤ mostPermits := Nat.max_le.mpr ⟨possible, by decide⟩
  rw [Permits.ofLimit?, dif_pos fits]
  exact ⟨_, rfl⟩

/-- There is a scan with every limit up to the most permits that there can be, and its account
holds by every schedule. -/
theorem scan_account {limit : Nat} (possible : limit ≤ mostPermits) (accepts : Net.Ipv4 → Bool)
    (hosts : List Net.Ipv4) (turns : List Task.Turn) (token : Bool) :
    ∃ scan, run? limit accepts hosts = some scan ∧ Account accepts hosts scan turns token := by
  rcases ofLimit?_eq_some possible with ⟨permits, isSome⟩
  exact ⟨run permits accepts hosts, by rw [run?, isSome, Option.map_some],
    account_run permits accepts hosts turns token⟩

/-- One of two hosts accepts, and no attempt is permitted by the limit. -/
theorem scan_account_zero :
    let hosts : List Net.Ipv4 := [.ofOctets 10 0 0 2, .ofOctets 10 0 0 1]
    let accepts (host : Net.Ipv4) : Bool := host.octet 3 == 2
    0 ≤ mostPermits ∧
      ∃ scan, run? 0 accepts hosts = some scan ∧ Account accepts hosts scan [] false :=
  ⟨Nat.zero_le _, scan_account (Nat.zero_le _) _ _ _ _⟩

/-- With the next limit there is no scan, although its one host accepts. -/
theorem run?_beyond_mostPermits :
    run? 2305843009213693952 (fun _ => true) [.ofOctets 10 0 0 2] = none :=
  rfl

end BridgeFinder.Scan
