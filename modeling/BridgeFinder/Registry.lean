import BridgeFinder.Options
import BridgeFinder.Session
import BridgeFinder.Task

/-!
# Methods and their registry

A search is made up of methods, each of one kind.  A method may refuse to take
part; otherwise it is a task that ends by delivering bridges, or without
delivering anything.

A registry knows how to make the method of each kind for a session.  A maker may
decline, and need not give a method of the kind that it is registered for.
-/

namespace BridgeFinder

/-! ## Methods -/

/-- How a method takes part in a search. -/
inductive Conduct where
  /-- The method refuses to start. -/
  | refuses
  /-- The method runs a task.  It ends with `none` if nothing is delivered. -/
  | searches (task : Task Activity (Option (List Bridge)))

/-- A method of a search. -/
structure Method where
  kind : Kind
  conduct : Conduct

namespace Method

/-- The task of a method that reports its start and its end and delivers what its
search has found.  The search counts as cancelled if it is when it ends. -/
def reported (session : Session) (kind : Kind) (search : Task Activity (List Bridge)) :
    Task Activity (Option (List Bridge)) :=
  .emit (session.methodStarted kind) <|
    search.bind fun found =>
      .check fun cancelled =>
        .emit (session.methodFinished kind (.ofCancelled cancelled)) (.done (some found))

/-- A method that runs a search and reports on it. -/
def reporting (session : Session) (kind : Kind) (search : Task Activity (List Bridge)) :
    Method where
  kind := kind
  conduct := .searches (reported session kind search)

/-- A method whose search breaks down.  It reports its start, and delivers nothing. -/
def failing (session : Session) (kind : Kind) : Method where
  kind := kind
  conduct := .searches (.emit (session.methodStarted kind) (.done none))

end Method

/-! ## Registered methods -/

/-- What makes a method for a session, unless it declines. -/
abbrev Maker := Session → Option Method

/-- The makers registered for the kinds. -/
structure Registry where
  maker? : Kind → Option Maker

namespace Registry

/-- A registry that knows no method. -/
def empty : Registry where
  maker? _ := none

/-- Register a maker in place of the one before. -/
def register (kind : Kind) (maker : Maker) (registry : Registry) : Registry where
  maker? other := if other = kind then some maker else registry.maker? other

/-- A maker is registered for a kind. -/
def contains (kind : Kind) (registry : Registry) : Bool :=
  (registry.maker? kind).isSome

/-- Take the maker of a kind out. -/
def take (kind : Kind) (registry : Registry) : Registry × Option Maker :=
  ({ maker? := fun other => if other = kind then none else registry.maker? other },
    registry.maker? kind)

/-- Forget the maker of a kind.  The Boolean says whether one was taken out. -/
def unregister (kind : Kind) (registry : Registry) : Registry × Bool :=
  ((registry.take kind).1, (registry.take kind).2.isSome)

/-- Make the methods that the options select, in processing order. -/
def resolve (options : Options) (session : Session) (registry : Registry) : List Method :=
  options.kinds.filterMap fun kind => (registry.maker? kind).bind fun make => make session

end Registry

end BridgeFinder
