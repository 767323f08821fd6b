import BridgeFinder.Job.Turn
import BridgeFinder.MethodSearch

/-!
# A method that is searched with again and again

A task is made for every call to search, whether or not the search is accepted.  A search that
is accepted works at its job.  When the outcome is there, the end of the search is reported, its
callback is called and returns, and only then does its job count as finished.  The job of an
earlier search stays where it is: whoever holds it may still let it take turns.
-/

namespace BridgeFinder.MethodSearch

/-- How far a search has come with reporting its outcome. -/
inductive Report where
  /-- There is nothing to report yet. -/
  | awaited
  /-- It has been reported that the search has ended. -/
  | announced (outcome : Outcome (List Bridge))
  /-- The callback has been called. -/
  | called (outcome : Outcome (List Bridge))
  /-- The callback has returned. -/
  | returned (outcome : Outcome (List Bridge))
deriving DecidableEq, Repr

/-- A search that was accepted.  Its callback goes by the number of the call. -/
structure Begun where
  current : Current Nat
  report : Report

/-- The number of the call. -/
def Begun.number (begun : Begun) : Nat :=
  begun.current.callback

namespace Live

/-- What can be seen of a method that is searched with.  Calls to search are told apart by
numbers. -/
inductive Mark where
  /-- A task is made for a call. -/
  | made (number : Nat)
  /-- It is settled what a call to search returns. -/
  | asked (number : Nat) (accepted : Bool)
  /-- A search does something. -/
  | activity (number : Nat) (activity : Activity)
  /-- A request to stop a search is accepted. -/
  | cancelled (number : Nat)
  /-- The callback of a search is called. -/
  | called (delivery : Delivery Nat)
  /-- The callback of a search has returned. -/
  | returned (number : Nat)
deriving DecidableEq, Repr

namespace Mark

/-- What can be seen of the job of a search. -/
def ofJob (number : Nat) : Job.Mark Activity → Mark
  | .signal done => activity number done
  | .cancelled => cancelled number

/-- The search that the mark is about, once it has been accepted. -/
def number? : Mark → Option Nat
  | made _ | asked _ _ => none
  | activity number _ | cancelled number | returned number => some number
  | called delivery => some delivery.name

/-- The call that the task is made for. -/
def made? : Mark → Option Nat
  | made number => some number
  | _ => none

/-- The call to search, with what it returns. -/
def asked? : Mark → Option (Nat × Bool)
  | asked number accepted => some (number, accepted)
  | _ => none

end Mark

/-- A turn of a method that is searched with.  The searches that were accepted are in their
places, the last one in the first place. -/
inductive Turn where
  /-- A search is asked for. -/
  | search
  /-- The job of a search takes a turn. -/
  | job (place : Nat) (turn : Job.Turn)
  /-- It is reported that a search has ended. -/
  | announce (place : Nat)
  /-- The callback of a search is called. -/
  | call (place : Nat)
  /-- The callback of a search returns. -/
  | back (place : Nat)
deriving DecidableEq, Repr

/-- A turn that needs nobody from outside. -/
def Turn.isOwn : Turn → Bool
  | .search | .job _ .request => false
  | _ => true

end Live

/-- A method that is searched with, and everything that is under way because of it. -/
structure Live where
  kind : Kind
  session : Session
  /-- The task that is made for a call. -/
  make : Nat → Task Activity (List Bridge)
  /-- The number of tasks that have been made. -/
  made : Nat := 0
  /-- The searches that were accepted, the last one first. -/
  begun : List Begun := []

namespace Live

/-- The method: of the searches that were accepted, it knows the last one. -/
def method (live : Live) : MethodSearch Nat where
  kind := live.kind
  session := live.session
  current := live.begun.head?.map Begun.current

/-- Ask for a search. -/
def search (live : Live) : List Mark × Live :=
  let number := live.made
  let (activities, method, accepted) := live.method.search (live.make number) number
  (.made number :: .asked number accepted :: activities.map (.activity number),
    { live with
      made := number + 1
      begun :=
        if accepted then (method.current.map (Begun.mk · .awaited)).toList ++ live.begun
        else live.begun })

/-- Let a job take a turn. -/
def work (place : Nat) (turn : Job.Turn) (live : Live) : List Mark × Live :=
  match live.begun[place]? with
  | some begun =>
      let (marks, job) := begun.current.job.turn turn
      (marks.map (.ofJob begun.number),
        { live with
          begun := live.begun.set place { begun with current := { begun.current with job } } })
  | none => ([], live)

/-- Report that a search has ended. -/
def announce (place : Nat) (live : Live) : List Mark × Live :=
  match live.begun[place]? with
  | some begun =>
      match begun.report, begun.current.job.outcome? with
      | .awaited, some outcome =>
          ([.activity begun.number
              (live.session.methodFinished live.kind (.ofCancelled outcome.cancelled))],
            { live with
              begun := live.begun.set place { begun with report := .announced outcome } })
      | _, _ => ([], live)
  | none => ([], live)

/-- Call the callback of a search whose end has been reported. -/
def call (place : Nat) (live : Live) : List Mark × Live :=
  match live.begun[place]? with
  | some begun =>
      match begun.report with
      | .announced outcome =>
          ([.called ⟨begun.number, outcome.output, .ofCancelled outcome.cancelled⟩],
            { live with begun := live.begun.set place { begun with report := .called outcome } })
      | _ => ([], live)
  | none => ([], live)

/-- Let the callback of a search return.  With that its job is finished. -/
def back (place : Nat) (live : Live) : List Mark × Live :=
  match live.begun[place]? with
  | some begun =>
      match begun.report with
      | .called outcome =>
          ([.returned begun.number],
            { live with
              begun := live.begun.set place
                { current := { begun.current with job := begun.current.job.close }
                  report := .returned outcome } })
      | _ => ([], live)
  | none => ([], live)

/-- Take a turn. -/
def turn (turn : Turn) (live : Live) : List Mark × Live :=
  match turn with
  | .search => live.search
  | .job place turn => live.work place turn
  | .announce place => live.announce place
  | .call place => live.call place
  | .back place => live.back place

/-- The method rests: nothing happens any more, unless somebody asks it for something. -/
def Rests (live : Live) : Prop :=
  ∀ next, next.isOwn = true → live.turn next = ([], live)

/-- Let a method work by a schedule. -/
def workBy (turns : List Turn) (live : Live) : List Mark × Live :=
  play turn turns live

end Live

end BridgeFinder.MethodSearch
