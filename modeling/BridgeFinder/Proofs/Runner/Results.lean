import BridgeFinder.Runner
import Mathlib.Data.List.Induction
import Mathlib.Tactic.SplitIfs

/-!
# Bridges by address

A runner keeps its bridges strictly ascending by address, and a bridge takes the place
of the one that had its address.  So after any number of deliveries there is exactly one
bridge for every address that was delivered, namely the last one.
-/

namespace BridgeFinder.Runner

/-- Bridges ascend strictly by address. -/
def Ascending (bridges : List Bridge) : Prop :=
  bridges.Pairwise fun first second => first.ip < second.ip

/-- The bridge delivered last for an address. -/
def last? (ip : String) (delivered : List Bridge) : Option Bridge :=
  delivered.reverse.find? fun bridge => bridge.ip = ip

theorem ip_lt_of_not_lt_of_ne {bridge first : Bridge} (before : ¬ bridge.ip < first.ip)
    (other : bridge.ip ≠ first.ip) : first.ip < bridge.ip :=
  Std.lt_of_le_of_ne (Std.not_lt.mp before) (Ne.symm other)

/-! ## Putting one bridge among others -/

theorem mem_of_mem_put {results : List Bridge} {bridge found : Bridge}
    (member : found ∈ put results bridge) : found = bridge ∨ found ∈ results := by
  induction results with
  | nil => simpa [put] using member
  | cons first rest ih =>
      rw [put] at member
      split_ifs at member with before same
      · simpa using member
      · simp only [List.mem_cons] at member ⊢
        exact member.imp_right .inr
      · rcases List.mem_cons.mp member with rfl | later
        · simp
        · exact (ih later).imp_right (List.mem_cons_of_mem _)

/-- A bridge that is put among others keeps them ascending. -/
theorem ascending_put {results : List Bridge} (sorted : Ascending results) (bridge : Bridge) :
    Ascending (put results bridge) := by
  induction results with
  | nil => simp [put, Ascending]
  | cons first rest ih =>
      rcases List.pairwise_cons.mp sorted with ⟨least, sortedRest⟩
      rw [put]
      split_ifs with before same
      · rw [Ascending, List.pairwise_cons]
        constructor
        · intro found member
          rcases List.mem_cons.mp member with rfl | later
          · exact before
          · exact String.lt_trans before (least found later)
        · exact sorted
      · exact List.pairwise_cons.mpr ⟨fun found later => same ▸ least found later, sortedRest⟩
      · rw [Ascending, List.pairwise_cons]
        constructor
        · intro found member
          rcases mem_of_mem_put member with rfl | later
          · exact ip_lt_of_not_lt_of_ne before same
          · exact least found later
        · exact ih sortedRest

/-- Putting a bridge among others changes nothing at other addresses, and leaves no other
bridge at its own. -/
theorem filter_put {results : List Bridge} (sorted : Ascending results) (bridge : Bridge)
    (ip : String) :
    (put results bridge).filter (·.ip = ip) =
      if bridge.ip = ip then [bridge] else results.filter (·.ip = ip) := by
  induction results with
  | nil => simp [put, List.filter_cons]
  | cons first rest ih =>
      rcases List.pairwise_cons.mp sorted with ⟨least, sortedRest⟩
      have none (below : bridge.ip < first.ip ∨ bridge.ip = first.ip) :
          rest.filter (·.ip = bridge.ip) = [] := by
        rw [List.filter_eq_nil_iff]
        intro found later
        have above : bridge.ip < found.ip := by
          rcases below with before | same
          · exact String.lt_trans before (least found later)
          · exact same ▸ least found later
        simpa using fun same => String.lt_irrefl _ (same ▸ above)
      by_cases here : bridge.ip = ip
      · subst here
        rw [put, if_pos rfl]
        split_ifs with before same
        · have other : first.ip ≠ bridge.ip := fun same => String.lt_irrefl _ (same ▸ before)
          rw [List.filter_cons_of_pos (by simp), List.filter_cons_of_neg (by simpa using other),
            none (.inl before)]
        · rw [List.filter_cons_of_pos (by simp), none (.inr same)]
        · have other : first.ip ≠ bridge.ip := Ne.symm same
          rw [List.filter_cons_of_neg (by simpa using other), ih sortedRest, if_pos rfl]
      · rw [put, if_neg here]
        split_ifs with before same
        · rw [List.filter_cons_of_neg (by simpa using here)]
        · have other : first.ip ≠ ip := same ▸ here
          rw [List.filter_cons_of_neg (by simpa using here),
            List.filter_cons_of_neg (by simpa using other)]
        · simp only [List.filter_cons, ih sortedRest, if_neg here]

/-! ## Merging deliveries -/

theorem merge_append (results first second : List Bridge) :
    merge results (first ++ second) = merge (merge results first) second :=
  List.foldl_append

theorem ascending_merge {results : List Bridge} (sorted : Ascending results)
    (delivered : List Bridge) : Ascending (merge results delivered) := by
  induction delivered generalizing results with
  | nil => exact sorted
  | cons first rest ih => exact ih (ascending_put sorted first)

theorem last?_concat (ip : String) (delivered : List Bridge) (bridge : Bridge) :
    last? ip (delivered ++ [bridge]) = if bridge.ip = ip then some bridge else last? ip delivered := by
  by_cases here : bridge.ip = ip <;> simp [last?, here]

/-- Of all bridges delivered for an address the last one is kept, and no other. -/
theorem filter_merge (delivered : List Bridge) (ip : String) :
    (merge [] delivered).filter (·.ip = ip) = (last? ip delivered).toList := by
  induction delivered using List.reverseRecOn with
  | nil => rfl
  | append_singleton delivered bridge ih =>
      have sorted : Ascending (merge [] delivered) := ascending_merge .nil delivered
      rw [merge_append, last?_concat]
      change (put (merge [] delivered) bridge).filter _ = _
      rw [filter_put sorted, ih]
      split_ifs <;> rfl

end BridgeFinder.Runner
