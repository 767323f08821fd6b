import BridgeFinder.Activity
import BridgeFinder.Task

/-!
# Trying the hosts of a subnet

A scan tries to connect to every host of a list and keeps those that accept, in
ascending order.  All attempts are asked for at once, but an attempt needs a permit, of
which there are only so many, and gives it back when it is over.  Meanwhile the scan
notices which attempts are over, one after another.  Which attempt is permitted, which one
is over and which one is noticed next is up to the schedule.  A cancelled scan has found
nothing.

The permits are counted by a semaphore, which cannot count to every number of a machine word.
A scan with a limit beyond that does not begin.
-/

namespace BridgeFinder.Scan

/-- The ways to pick one element of a list, each with the elements that are left. -/
def picks {α : Type} : List α → List (α × List α)
  | [] => []
  | first :: rest =>
      (first, rest) :: (picks rest).map fun (picked, left) => (picked, first :: left)

/-- How far the attempts of a scan have come. -/
structure Attempts where
  /-- The hosts whose attempts wait for a permit. -/
  waiting : List Net.Ipv4
  /-- The hosts whose attempts are under way. -/
  underWay : List Net.Ipv4 := []
  /-- The hosts whose attempts are over, without the scan having noticed it. -/
  finished : List Net.Ipv4 := []
  /-- The hosts that have accepted, as far as the scan has noticed. -/
  reached : List Net.Ipv4 := []
deriving DecidableEq, Repr

/-- A way for a scan to go on. -/
inductive Way where
  /-- An attempt is permitted, or is over. -/
  | proceed (attempts : Attempts)
  /-- The scan notices that the attempt at a host is over. -/
  | notice (host : Net.Ipv4) (attempts : Attempts)
deriving DecidableEq, Repr

/-- How far the attempts have come then. -/
def Way.attempts : Way → Attempts
  | proceed attempts | notice _ attempts => attempts

/-- The most permits that a semaphore can have: `2 ^ 61 - 1`. -/
def mostPermits : Nat := 2305843009213693951

/-- The permits of a scan. -/
structure Permits where
  count : Nat
  positive : 0 < count
  possible : count ≤ mostPermits

/-- The permits of a scan with a limit, if there can be so many.  A limit of zero counts
as one. -/
def Permits.ofLimit? (limit : Nat) : Option Permits :=
  if possible : max limit 1 ≤ mostPermits then
    some
      { count := max limit 1
        positive := Nat.lt_of_lt_of_le Nat.zero_lt_one (Nat.le_max_right ..)
        possible }
  else none

namespace Attempts

/-- The hosts whose attempts the scan has not noticed to be over. -/
def left (attempts : Attempts) : List Net.Ipv4 :=
  attempts.waiting ++ attempts.underWay ++ attempts.finished

/-- The number of steps that the attempts still take. -/
def rank (attempts : Attempts) : Nat :=
  3 * attempts.waiting.length + 2 * attempts.underWay.length + attempts.finished.length

/-- The attempts after one more has been permitted. -/
def permitted (permits : Permits) (attempts : Attempts) : List Attempts :=
  if attempts.underWay.length < permits.count then
    (picks attempts.waiting).map fun (host, left) =>
      { attempts with waiting := left, underWay := host :: attempts.underWay }
  else []

/-- The attempts after one more is over. -/
def ended (attempts : Attempts) : List Attempts :=
  (picks attempts.underWay).map fun (host, left) =>
    { attempts with underWay := left, finished := host :: attempts.finished }

/-- The ways for a scan to go on. -/
def ways (permits : Permits) (attempts : Attempts) : List Way :=
  (attempts.permitted permits ++ attempts.ended).map .proceed ++
    (picks attempts.finished).map fun (host, left) =>
      .notice host { attempts with finished := left }

/-- Count a host among those that have accepted. -/
def reach (host : Net.Ipv4) (attempts : Attempts) : Attempts :=
  { attempts with reached := attempts.reached ++ [host] }

end Attempts

/-- What is picked and what is left make out the list. -/
theorem perm_of_mem_picks {α : Type} {list left : List α} {picked : α}
    (member : (picked, left) ∈ picks list) : (picked :: left).Perm list := by
  induction list generalizing left with
  | nil => cases member
  | cons first rest ih =>
      rcases List.mem_cons.mp member with same | later
      · cases same
        exact .refl _
      · rcases List.mem_map.mp later with ⟨⟨_, others⟩, inner, same⟩
        cases same
        exact (List.Perm.swap first picked others).trans ((ih inner).cons first)

theorem length_of_mem_picks {α : Type} {list left : List α} {picked : α}
    (member : (picked, left) ∈ picks list) : left.length + 1 = list.length :=
  (perm_of_mem_picks member).length_eq

/-- Every way brings the attempts nearer to their end. -/
theorem rank_lt_of_mem_ways {permits : Permits} {attempts : Attempts} {way : Way}
    (member : way ∈ attempts.ways permits) : way.attempts.rank < attempts.rank := by
  simp only [Attempts.ways, Attempts.permitted, Attempts.ended, List.mem_append, List.mem_map]
    at member
  rcases member with ⟨next, begun | ⟨⟨host, left⟩, inner, rfl⟩, rfl⟩ | ⟨⟨host, left⟩, inner, rfl⟩
  · split at begun
    · rcases List.mem_map.mp begun with ⟨⟨host, left⟩, inner, rfl⟩
      have size := length_of_mem_picks inner
      simp only [Way.attempts, Attempts.rank, List.length_cons]
      omega
    · cases begun
  · have size := length_of_mem_picks inner
    simp only [Way.attempts, Attempts.rank, List.length_cons]
    omega
  · have size := length_of_mem_picks inner
    simp only [Way.attempts, Attempts.rank]
    omega

/-- Go on with a scan.  It ends when all attempts have been noticed to be over; if there
were no permit for those that are left, it would hang. -/
def go (permits : Permits) (accepts : Net.Ipv4 → Bool) (attempts : Attempts) :
    Task Activity (List Net.Ipv4) :=
  .check fun cancelled =>
    if cancelled then .done []
    else
      .among (attempts.ways permits).attach
        (if attempts.left.isEmpty then
          .done (attempts.reached.mergeSort fun a b => decide (a ≤ b))
        else .stall (.done []))
        fun
          | ⟨.proceed next, _⟩ => go permits accepts next
          | ⟨.notice host next, _⟩ =>
              if accepts host then .emit (.reached host) (go permits accepts (next.reach host))
              else go permits accepts next
termination_by attempts.rank
decreasing_by all_goals exact rank_lt_of_mem_ways ‹_›

/-- Try all hosts. -/
def run (permits : Permits) (accepts : Net.Ipv4 → Bool) (hosts : List Net.Ipv4) :
    Task Activity (List Net.Ipv4) :=
  go permits accepts { waiting := hosts }

/-- Try all hosts, at most `limit` at a time, if there can be so many permits; a limit of
zero counts as one. -/
def run? (limit : Nat) (accepts : Net.Ipv4 → Bool) (hosts : List Net.Ipv4) :
    Option (Task Activity (List Net.Ipv4)) :=
  (Permits.ofLimit? limit).map fun permits => run permits accepts hosts

end BridgeFinder.Scan
