import BridgeFinder.Registry

/-!
# Running methods one after another

The methods of a search are run in the order of their priorities, and the next one
is started only when the one before has ended.  Of all bridges delivered for one
address the last one counts.  When the search is cancelled, the method that is
running may still deliver, and the others are not started any more.
-/

namespace BridgeFinder

/-- Methods to run, and the bridges delivered so far, ascending by address. -/
structure Runner where
  queue : List Method
  results : List Bridge := []

namespace Runner

/-- Put a bridge among others that ascend by address, in place of the one that had
its address. -/
def put (results : List Bridge) (bridge : Bridge) : List Bridge :=
  match results with
  | [] => [bridge]
  | first :: rest =>
      if bridge.ip < first.ip then bridge :: first :: rest
      else if bridge.ip = first.ip then bridge :: rest
      else first :: put rest bridge

/-- Put several bridges among others, one after another. -/
def merge (results delivered : List Bridge) : List Bridge :=
  delivered.foldl put results

/-- Queue methods by priority.  Methods of one kind keep their order. -/
def ofMethods (methods : List Method) : Runner where
  queue := methods.mergeSort fun a b => a.kind.priority ≤ b.kind.priority

/-- Run the methods of a queue, with the bridges delivered before.  The output is the
runner as it is left: of a search that was cancelled, methods may still be queued. -/
def runQueue (queue : List Method) (results : List Bridge) : Task Activity Runner :=
  match queue with
  | [] => .done ⟨[], results⟩
  | method :: rest =>
      .check fun cancelled =>
        if cancelled then .done ⟨rest, results⟩
        else
          match method.conduct with
          | .refuses => runQueue rest results
          | .searches search =>
              .emit (.started method.kind) <|
                search.bind fun delivered => runQueue rest (merge results (delivered.getD []))

/-- Hand over the bridges and drop the methods that have not been started. -/
def handOver (runner : Runner) : List Bridge × Runner :=
  (runner.results, { queue := [], results := [] })

/-- Run the methods that are queued.  The output is the bridges, and the runner
that is left. -/
def execute (runner : Runner) : Task Activity (List Bridge × Runner) :=
  (runQueue runner.queue runner.results).map handOver

end Runner

end BridgeFinder
