/-!
# Schedules

Where several parties are at work, each of them makes one step at a time, and the
order of the steps is up to the schedule.  A schedule is a list of turns; a turn that
cannot be taken changes nothing, so every list of turns is a schedule.
-/

namespace BridgeFinder

/-- Take turns one after another.  The marks are what can be seen of them. -/
def play {ι μ ρ : Type} (turn : ι → ρ → List μ × ρ) (turns : List ι) (state : ρ) : List μ × ρ :=
  match turns with
  | [] => ([], state)
  | first :: rest =>
      let (marks, next) := turn first state
      let (more, last) := play turn rest next
      (marks ++ more, last)

end BridgeFinder
