import BridgeFinder.Discovery.Staged

/-!
# A call to stop while a search starts

A call to stop is made of sections like a call to search: it takes hold of the job that is
published, asks it to stop, fires its token if it was running, and waits until it is over.  Between
these sections a search that is starting goes on.
-/

namespace BridgeFinder.Discovery

/-- How far a call to stop has come. -/
inductive StopCall where
  /-- The call has been made. -/
  | made
  /-- It has taken hold of the job of the search with the given number. -/
  | holds (number : Nat)
  /-- The job was running and has been asked to stop; its token has still to be fired. -/
  | fires (number : Nat)
  /-- The call waits for the job, which was found in a state, unless it had been replaced. -/
  | waits (number : Nat) (found : Option Job.State)
  /-- The call has returned, with what it had found. -/
  | returned (found : Option (Nat × Job.State))
deriving DecidableEq, Repr

/-- The call has found a job running, which is then asked to stop. -/
def StopCall.hasStopped : StopCall → Bool
  | fires _ | waits _ (some .running) | returned (some (_, .running)) => true
  | made | holds _ | waits .. | returned _ => false

/-- A discovery with a call to stop. -/
structure Stopping where
  staged : Staged
  call : StopCall := .made

namespace Stopping

/-- A turn of a discovery with a call to stop. -/
inductive Turn where
  /-- A turn that the discovery has in any case. -/
  | other (turn : Staged.Turn)
  /-- The next section of the call to stop. -/
  | stop

/-- The turn, if the discovery has it in any case. -/
def Turn.other? : Turn → Option Staged.Turn
  | other turn => some turn
  | stop => none

/-- Whoever waits for the job of the search with the given number returns.  The outcome of a job
that has been replaced was taken before. -/
def isOver (number : Nat) (staged : Staged) : Bool :=
  if number = staged.live.discovery.accepted then staged.live.discovery.isOver
  else !(staged.live.finishing.any fun finishing => finishing.number == number)

/-- Let the job of the search with the given number take a turn, unless it has been replaced: then
it does not run any more. -/
def work (number : Nat) (turn : Job.Turn) (staged : Staged) : List Staged.Mark × Staged :=
  if number = staged.live.discovery.accepted then staged.lift (staged.live.work turn)
  else ([], staged)

/-- The state of the job of the search with the given number, unless it has been replaced. -/
def state? (number : Nat) (staged : Staged) : Option Job.State :=
  if number = staged.live.discovery.accepted then staged.live.discovery.job.map Job.state else none

/-- The next section of the call to stop. -/
def stop (stopping : Stopping) : List Staged.Mark × Stopping :=
  match stopping.call with
  | .made =>
      let discovery := stopping.staged.live.discovery
      ([],
        { stopping with
          call := if discovery.job.isSome then .holds discovery.accepted else .returned none })
  | .holds number =>
      let found := state? number stopping.staged
      let (marks, staged) := work number .request stopping.staged
      (marks,
        { staged
          call := if found = some .running then .fires number else .waits number found })
  | .fires number =>
      let (marks, staged) := work number .fire stopping.staged
      (marks, { staged, call := .waits number (some .running) })
  | .waits number found =>
      ([],
        { stopping with
          call :=
            if isOver number stopping.staged then .returned (found.map (number, ·))
            else stopping.call })
  | .returned _ => ([], stopping)

/-- Take a turn. -/
def turn (turn : Turn) (stopping : Stopping) : List Staged.Mark × Stopping :=
  match turn with
  | .other turn =>
      let (marks, staged) := stopping.staged.turn turn
      (marks, { stopping with staged })
  | .stop => stopping.stop

/-- Let a discovery with a call to stop work by a schedule. -/
def workBy (turns : List Turn) (stopping : Stopping) : List Staged.Mark × Stopping :=
  play turn turns stopping

end Stopping

end BridgeFinder.Discovery
