import BridgeFinder.Discovery.Live

/-!
# A discovery whose searches start in sections

A call to search is made of sections: it reserves the slot, makes the methods, publishes the job,
announces the search and launches the job.  Everything else may come between two sections, other
calls to search among it, which are answered as busy.  A callback that asks for a search goes on
only when the search has been launched or turned down.  Whether a search is running, and under
which request id, may be looked up at any time.
-/

namespace BridgeFinder.Discovery

/-- How far a search has come that has reserved the slot. -/
inductive Stage where
  /-- The slot is reserved. -/
  | reserved (options : Options)
  /-- The methods are made. -/
  | resolved (methods : List Method)
  /-- The job is published. -/
  | published
  /-- The search is announced. -/
  | announced

/-- A search that has reserved the slot and has not been launched. -/
structure Starting where
  stage : Stage
  /-- A callback has asked for the search. -/
  isNested : Bool

/-- A discovery at work, with the search that is starting. -/
structure Staged where
  live : Live
  starting : Option Starting := none

namespace Staged

/-- What can be seen of a discovery. -/
inductive Mark where
  /-- Something that can be seen in any case.  That a search is asked for shows when it is settled
  how it is answered. -/
  | seen (mark : Discovery.Mark)
  /-- Methods are made. -/
  | made (methods : List Method)
  /-- It is looked up whether a search is running. -/
  | searching (answer : Bool)
  /-- The request id is looked up. -/
  | request (answer : Option Telemetry.RequestId)

/-- What can be seen in any case. -/
def Mark.seen? : Mark → Option Discovery.Mark
  | seen mark => some mark
  | made _ | searching _ | request _ => none

/-- A turn of a discovery whose searches start in sections. -/
inductive Turn where
  /-- A turn that the discovery has in any case.  Of a search it is the first section. -/
  | live (turn : Discovery.Turn)
  /-- The search that is starting enters its next section. -/
  | advance
  /-- It is looked up whether a search is running. -/
  | searching
  /-- The request id is looked up. -/
  | request

/-- A turn that needs nobody from outside. -/
def Turn.isOwn : Turn → Bool
  | live turn => turn.isOwn
  | advance => true
  | searching | request => false

/-- A callback has asked for the search that is starting. -/
def isNested (staged : Staged) : Bool :=
  staged.starting.any Starting.isNested

/-- Do something that no search has to do with. -/
def lift (step : List Discovery.Mark × Live) (staged : Staged) : List Mark × Staged :=
  (step.1.map .seen, { staged with live := step.2 })

/-- The first section of a search. -/
def enter (options : Options) (callback : Callback) (isNested : Bool) (staged : Staged) :
    List Mark × Staged :=
  match staged.live.discovery.reserve callback with
  | (discovery, none) =>
      ([.seen (.asked ⟨callback, .busy⟩)],
        { staged with live := { staged.live with discovery } })
  | (discovery, some ()) =>
      ([],
        { live := { staged.live with discovery }
          starting := some ⟨.reserved options, isNested⟩ })

/-- Publish the job of a search, or turn it down if it has no methods. -/
def publish (methods : List Method) (isNested : Bool) (staged : Staged) : List Mark × Staged :=
  let discovery := staged.live.discovery
  let asked (verdict : Verdict) : List Mark :=
    (discovery.parked.map fun callback => .seen (.asked ⟨callback, verdict⟩)).toList
  match methods with
  | [] => (asked .missing, { live := { staged.live with discovery := discovery.withdraw } })
  | methods =>
      (asked (.accepted (discovery.accepted + 1) methods),
        { live := { staged.live with discovery := discovery.publish methods }
          starting := some ⟨.published, isNested⟩ })

/-- The next section of the search that is starting. -/
def advance (staged : Staged) : List Mark × Staged :=
  match staged.starting with
  | none => ([], staged)
  | some ⟨.reserved options, isNested⟩ =>
      let methods := staged.live.discovery.resolve options
      ([.made methods], { staged with starting := some ⟨.resolved methods, isNested⟩ })
  | some ⟨.resolved methods, isNested⟩ => staged.publish methods isNested
  | some ⟨.published, isNested⟩ =>
      (staged.live.discovery.announce.map fun activity => .seen (.activity activity),
        { staged with starting := some ⟨.announced, isNested⟩ })
  | some ⟨.announced, _⟩ =>
      ([], { live := { staged.live with discovery := staged.live.discovery.launch } })

/-- Take a turn. -/
def turn (turn : Turn) (staged : Staged) : List Mark × Staged :=
  match turn with
  | .live (.search _ none) => ([], staged)
  | .live (.search options (some callback)) =>
      if staged.live.isDropped then ([], staged) else staged.enter options callback false
  | .live .nested =>
      match staged.isNested, staged.live.calling with
      | false, (options, callback) :: rest =>
          { staged with live := { staged.live with calling := rest } }.enter options callback true
      | _, _ => ([], staged)
  | .live .call => if staged.isNested then ([], staged) else staged.lift staged.live.call
  | .live .drop => if staged.starting.isSome then ([], staged) else staged.lift staged.live.drop
  | .live turn => staged.lift (staged.live.turn turn)
  | .advance => staged.advance
  | .searching => ([.searching staged.live.discovery.isSearching], staged)
  | .request => ([.request staged.live.discovery.request?], staged)

/-- Let a discovery work by a schedule. -/
def workBy (turns : List Turn) (staged : Staged) : List Mark × Staged :=
  play turn turns staged

/-- A discovery that has just been made. -/
def fresh (registry : Registry) (identify : Nat → Session) : Staged where
  live := { discovery := { registry, identify } }

end Staged

end BridgeFinder.Discovery
