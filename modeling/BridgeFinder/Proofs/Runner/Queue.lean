import BridgeFinder.Runner
import Mathlib.Data.List.Pairwise

/-!
# The queue of a runner

Methods are queued by a stable sort: the queue holds the same methods, it ascends by
priority, and methods of one kind keep their order.  These three properties determine
the queue, since every kind has a priority of its own.
-/

namespace BridgeFinder

namespace Runner

/-- A queue is a stable sort of methods by priority. -/
structure Sorts (methods queue : List Method) : Prop where
  perm : queue.Perm methods
  ascending : queue.Pairwise fun first second => first.kind.priority ≤ second.kind.priority
  stable : ∀ kind, (queue.filter fun method => method.kind = kind) =
    methods.filter fun method => method.kind = kind

/-- A queue that ascends by priority holds its methods kind after kind. -/
theorem eq_flatMap_of_ascending {queue : List Method}
    (ascending : queue.Pairwise fun first second => first.kind.priority ≤ second.kind.priority) :
    queue = Kind.processingOrder.flatMap fun kind => queue.filter fun method =>
      method.kind = kind := by
  induction queue with
  | nil => rfl
  | cons method rest ih =>
      rcases List.pairwise_cons.mp ascending with ⟨least, ascendingRest⟩
      have gone (kind : Kind) (before : kind.priority < method.kind.priority) :
          (rest.filter fun method => method.kind = kind) = [] := by
        rw [List.filter_eq_nil_iff]
        intro later member
        have := least later member
        simp only [decide_eq_true_eq]
        rintro rfl
        omega
      have split := ih ascendingRest
      simp only [Kind.processingOrder, List.flatMap_cons, List.flatMap_nil] at split ⊢
      cases here : method.kind with
      | mdns => simpa [here] using split
      | ipscan => simpa [here, gone .mdns (by simp [here, Kind.priority])] using split
      | upnp =>
          simpa [here, gone .mdns (by simp [here, Kind.priority]),
            gone .ipscan (by simp [here, Kind.priority])] using split
      | nupnp =>
          simpa [here, gone .mdns (by simp [here, Kind.priority]),
            gone .ipscan (by simp [here, Kind.priority]),
            gone .upnp (by simp [here, Kind.priority])] using split

/-- Only one queue is a stable sort of given methods. -/
theorem Sorts.unique {methods first second : List Method} (one : Sorts methods first)
    (other : Sorts methods second) : first = second := by
  rw [eq_flatMap_of_ascending one.ascending, eq_flatMap_of_ascending other.ascending]
  simp only [one.stable, other.stable]

theorem queue_trans (a b c : Method) :
    decide (a.kind.priority ≤ b.kind.priority) → decide (b.kind.priority ≤ c.kind.priority) →
      decide (a.kind.priority ≤ c.kind.priority) := by
  simpa using Nat.le_trans

theorem queue_total (a b : Method) :
    decide (a.kind.priority ≤ b.kind.priority) || decide (b.kind.priority ≤ a.kind.priority) := by
  simpa using Nat.le_total _ _

/-- The methods of one kind stand in the queue in the order in which they were given. -/
theorem filter_sublist_queue (methods : List Method) (kind : Kind) :
    (methods.filter fun method => method.kind = kind).Sublist (ofMethods methods).queue := by
  apply List.sublist_mergeSort queue_trans queue_total _ List.filter_sublist
  apply List.pairwise_of_forall_mem_list
  intro first memFirst second memSecond
  have sameFirst : first.kind = kind := by simpa using (List.mem_filter.mp memFirst).2
  have sameSecond : second.kind = kind := by simpa using (List.mem_filter.mp memSecond).2
  simp [sameFirst, sameSecond]

/-- Methods are queued by a stable sort. -/
theorem sorts_queue (methods : List Method) : Sorts methods (ofMethods methods).queue := by
  have perm : (ofMethods methods).queue.Perm methods := List.mergeSort_perm _ _
  constructor
  · exact perm
  · have ascending := List.pairwise_mergeSort queue_trans queue_total methods
    exact ascending.imp of_decide_eq_true
  · intro kind
    have sublist := (filter_sublist_queue methods kind).filter fun method => method.kind = kind
    rw [List.filter_filter] at sublist
    simp only [Bool.and_self] at sublist
    exact (sublist.eq_of_length (perm.filter _).length_eq.symm).symm

end Runner

end BridgeFinder
