/-!
# The dispatcher

Callbacks are called on a thread of their own, one after another in the order in
which they were posted.  A call never interrupts another one: what is posted
meanwhile waits its turn.  When the dispatcher is shut down, it still runs what has
been posted and takes nothing more.
-/

namespace BridgeFinder

/-- A thread, as the dispatcher tells them apart. -/
inductive Thread where
  | caller
  | worker
deriving DecidableEq, Repr

/-- Work that waits, oldest first. -/
structure Dispatcher (ω : Type) where
  waiting : List ω := []
  isOpen : Bool := true
deriving DecidableEq, Repr

namespace Dispatcher

variable {ω α : Type}

/-- The thread is the one that runs the work. -/
def isWorker : Thread → Bool
  | .caller => false
  | .worker => true

/-- Post a piece of work.  The Boolean says whether it was taken. -/
def post (work : ω) (dispatcher : Dispatcher ω) : Dispatcher ω × Bool :=
  if dispatcher.isOpen then
    ({ dispatcher with waiting := dispatcher.waiting ++ [work] }, true)
  else (dispatcher, false)

/-- Take nothing more. -/
def shut (dispatcher : Dispatcher ω) : Dispatcher ω :=
  { dispatcher with isOpen := false }

/-- Take the oldest piece of work to run it. -/
def next? (dispatcher : Dispatcher ω) : Option (ω × Dispatcher ω) :=
  match dispatcher.waiting with
  | [] => none
  | work :: rest => some (work, { dispatcher with waiting := rest })

end Dispatcher

/-- Work that posts more work while it runs. -/
inductive Work (α : Type) where
  | item (label : α) (posts : List (Work α))
deriving Inhabited

namespace Work

variable {α : Type}

/-- The label of a piece of work. -/
def label : Work α → α
  | item label _ => label

/-- What a piece of work posts. -/
def posts : Work α → List (Work α)
  | item _ posts => posts

mutual

/-- The number of pieces that a piece of work comes to, with all that it posts. -/
def size : Work α → Nat
  | item _ posts => sizes posts + 1

/-- The number of pieces that several pieces of work come to. -/
def sizes : List (Work α) → Nat
  | [] => 0
  | work :: rest => work.size + sizes rest

end

end Work

namespace Dispatcher

variable {α : Type}

/-- A piece of work that was run, and the thread that ran it. -/
structure Ran (α : Type) where
  label : α
  thread : Thread
deriving DecidableEq, Repr

/-- Run the oldest piece of work.  It posts its own pieces while it runs. -/
def step? (dispatcher : Dispatcher (Work α)) : Option (Ran α × Dispatcher (Work α)) :=
  dispatcher.next?.map fun (work, rest) =>
    (⟨work.label, .worker⟩, work.posts.foldl (fun rest posted => (rest.post posted).1) rest)

/-- Run at most `limit` pieces of work. -/
def run (limit : Nat) (dispatcher : Dispatcher (Work α)) : List (Ran α) × Dispatcher (Work α) :=
  match limit with
  | 0 => ([], dispatcher)
  | limit + 1 =>
      match dispatcher.step? with
      | none => ([], dispatcher)
      | some (ran, next) =>
          let (more, final) := next.run limit
          (ran :: more, final)

/-- Run work until none is left. -/
def drain (dispatcher : Dispatcher (Work α)) : List (Ran α) × Dispatcher (Work α) :=
  dispatcher.run (Work.sizes dispatcher.waiting)

end Dispatcher

end BridgeFinder
