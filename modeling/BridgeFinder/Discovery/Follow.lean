import BridgeFinder.Discovery

/-!
# Following a search

A search that has been asked for is followed to its end.  Whenever it waits, it is
either stopped, if what was done so far calls for that, or let on.
-/

namespace BridgeFinder.Discovery

/-- How a search that was followed came to rest. -/
inductive Rest where
  /-- It ended by itself. -/
  | ended
  /-- It was stopped. -/
  | stopped
  /-- It waits for something that never comes. -/
  | stuck
deriving DecidableEq, Repr

/-- Stop the search and let it on, at most `limit` times, until it has ended. -/
def halt (limit : Nat) (discovery : Discovery) : List Happening × Discovery :=
  let (activities, discovery) := discovery.stop
  let (happenings, discovery) := discovery.settle
  let happenings := activities.map .activity ++ happenings
  match limit, discovery.release? with
  | limit + 1, some next =>
      let (more, discovery) := next.halt limit
      (happenings ++ more, discovery)
  | _, _ => (happenings, discovery)

/-- Follow the search until it has ended.  Where it waits, it is stopped if `due`
holds of what happened up to then, and let on otherwise, at most `limit` times. -/
def follow (due : List Happening → Bool) (limit : Nat) (happenings : List Happening)
    (discovery : Discovery) : List Happening × Discovery × Rest :=
  let (more, discovery) := discovery.settle
  let happenings := happenings ++ more
  if discovery.isOver then (happenings, discovery, .ended)
  else if due happenings then
    let (more, discovery) := discovery.halt limit
    (happenings ++ more, discovery, .stopped)
  else
    match limit, discovery.release? with
    | limit + 1, some next => next.follow due limit happenings
    | _, _ => (happenings, discovery, .stuck)

end BridgeFinder.Discovery
