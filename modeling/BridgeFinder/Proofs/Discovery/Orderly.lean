import BridgeFinder.Discovery.Live
import BridgeFinder.Proofs.Schedule

/-!
# Orderly schedules

A job that is over has its outcome taken and then reported.  Whoever asks for a search while
nothing moves, or while nothing else moves but the callback that asks, never comes between the
two.  A callback that is called while a search still runs may: it finds the slot free as soon as
the outcome has been taken.
-/

namespace BridgeFinder.Discovery

/-- A search is asked for. -/
def Turn.asks : Turn → Bool
  | .search .. | .nested => true
  | _ => false

namespace Live

/-- No outcome has been taken that is still to be reported. -/
def IsSettled (live : Live) : Prop :=
  ∀ finishing ∈ live.finishing, finishing.announced = true

/-- By a schedule, searches are accepted only where no outcome that has been taken is still to
be reported, so that for whoever asks, taking an outcome and reporting it are one step.  All else
may come in any order, searches that are declined included. -/
def Orderly (turns : List Turn) (live : Live) : Prop :=
  match turns with
  | [] => True
  | next :: rest =>
      (live.discovery.accepted < (live.turn next).2.discovery.accepted → live.IsSettled) ∧
        Orderly rest (live.turn next).2

variable {first second : List Turn} {live : Live}

theorem orderly_append : live.Orderly (first ++ second) ↔
    live.Orderly first ∧ Orderly second (live.workBy first).2 := by
  induction first generalizing live with
  | nil => simp [Orderly, workBy]
  | cons next rest ih => simp only [List.cons_append, Orderly, ih, workBy, play_cons, and_assoc]

end Live

end BridgeFinder.Discovery
