import BridgeFinder.Dispatcher
import BridgeFinder.Schedule

/-!
# A dispatcher at work

Other threads post work while the delivery thread runs what was posted before, and a piece of work
posts its own pieces, one after another, while it runs.  The turns come in any order.  A thread that
drops the dispatcher waits until the delivery thread has ended; only a piece of work that drops it
while it runs does not wait.
-/

namespace BridgeFinder.Dispatcher

/-- Who posts a piece of work. -/
inductive Poster where
  /-- Another thread. -/
  | outside
  /-- The piece of work with the given number, while it runs. -/
  | inside (number : Nat)
deriving DecidableEq, Repr

/-- The thread that posts. -/
def Poster.thread : Poster → Thread
  | outside => .caller
  | inside _ => .worker

/-- A post that was taken.  Its number is that of the posts that were taken before. -/
structure Entry (α : Type) where
  number : Nat
  label : α
  poster : Poster
deriving DecidableEq, Repr

/-- A piece of work that waits, with what it will post. -/
structure Pending (α : Type) where
  entry : Entry α
  posts : List (Work α)

/-- A piece of work that runs. -/
structure Running (α : Type) where
  entry : Entry α
  /-- What it has still to post. -/
  posts : List (Work α)
  /-- The post that has been taken and has not returned yet. -/
  posting : Option (Entry α) := none

/-- What can be seen of a dispatcher. -/
inductive Mark (α : Type) where
  /-- A post is taken. -/
  | posted (entry : Entry α)
  /-- A post is refused. -/
  | refused (label : α) (poster : Poster)
  /-- A post that a piece of work has made returns. -/
  | answered (entry : Entry α)
  /-- A piece of work starts to run. -/
  | started (entry : Entry α) (thread : Thread)
  /-- A piece of work has run. -/
  | ended (entry : Entry α)
  /-- The dispatcher has been dropped, and the thread that dropped it goes on. -/
  | dropped (thread : Thread)
deriving DecidableEq, Repr

/-- What a post shows: whether it is taken or not. -/
def Mark.ofPost {α : Type} (work : Work α) (poster : Poster) : Option (Entry α) → Mark α
  | some entry => posted entry
  | none => refused work.label poster

/-- A dispatcher at work. -/
structure Live (α : Type) where
  dispatcher : Dispatcher (Pending α) := {}
  /-- How many posts have been taken. -/
  taken : Nat := 0
  running : Option (Running α) := none
  /-- A thread waits for the delivery thread to end. -/
  isJoining : Bool := false
  /-- The delivery thread has ended. -/
  isOver : Bool := false

/-- A turn of a dispatcher at work. -/
inductive Turn (α : Type) where
  /-- Another thread posts a piece of work. -/
  | post (work : Work α)
  /-- The piece of work that runs posts its next piece. -/
  | nested
  /-- The post of the piece of work that runs returns. -/
  | answer
  /-- The delivery thread takes the oldest piece of work and starts it. -/
  | start
  /-- The piece of work that runs comes to its end. -/
  | finish
  /-- The dispatcher is dropped. -/
  | drop (thread : Thread)
  /-- The delivery thread ends. -/
  | leave
  /-- The thread that waits for the delivery thread goes on. -/
  | join

namespace Turn

variable {α : Type}

/-- A turn in which another thread posts. -/
def isPost : Turn α → Bool
  | post _ => true
  | _ => false

/-- A turn that needs nobody from outside. -/
def isOwn : Turn α → Bool
  | post _ | drop _ => false
  | _ => true

end Turn

namespace Live

variable {α : Type}

/-- Post a piece of work.  The entry says that it was taken. -/
def post (work : Work α) (poster : Poster) (live : Live α) : Option (Entry α) × Live α :=
  let entry := ⟨live.taken, work.label, poster⟩
  match live.dispatcher.post ⟨entry, work.posts⟩ with
  | (dispatcher, true) => (some entry, { live with dispatcher, taken := live.taken + 1 })
  | (_, false) => (none, live)

/-- Let another thread post a piece of work. -/
def postOutside (work : Work α) (live : Live α) : List (Mark α) × Live α :=
  let (posted, live) := live.post work .outside
  ([.ofPost work .outside posted], live)

/-- Let the piece of work that runs post its next piece.  A post that is refused returns at
once. -/
def nested (live : Live α) : List (Mark α) × Live α :=
  match live.running with
  | some ⟨entry, work :: posts, none⟩ =>
      let (posting, live) := live.post work (.inside entry.number)
      ([.ofPost work (.inside entry.number) posting],
        { live with running := some ⟨entry, posts, posting⟩ })
  | _ => ([], live)

/-- Let the post of the piece of work that runs return. -/
def answer (live : Live α) : List (Mark α) × Live α :=
  match live.running with
  | some ⟨entry, posts, some posting⟩ =>
      ([.answered posting], { live with running := some ⟨entry, posts, none⟩ })
  | _ => ([], live)

/-- Start the oldest piece of work, unless one is running. -/
def start (live : Live α) : List (Mark α) × Live α :=
  match live.running, live.dispatcher.next? with
  | none, some (pending, dispatcher) =>
      ([.started pending.entry .worker],
        { live with dispatcher, running := some ⟨pending.entry, pending.posts, none⟩ })
  | _, _ => ([], live)

/-- Let the piece of work that runs come to its end, once it has posted everything. -/
def finish (live : Live α) : List (Mark α) × Live α :=
  match live.running with
  | some ⟨entry, [], none⟩ => ([.ended entry], { live with running := none })
  | _ => ([], live)

/-- The thread has a chance to drop the dispatcher: the delivery thread only while a piece of work
runs, and not in the middle of a post. -/
def mayDrop (thread : Thread) (live : Live α) : Bool :=
  live.dispatcher.isOpen &&
    (!isWorker thread || live.running.any fun running => running.posting.isNone)

/-- Drop the dispatcher.  The delivery thread does not wait for itself. -/
def drop (thread : Thread) (live : Live α) : List (Mark α) × Live α :=
  if live.mayDrop thread then
    let live := { live with dispatcher := live.dispatcher.shut }
    if isWorker thread then ([.dropped thread], live) else ([], { live with isJoining := true })
  else ([], live)

/-- Let the delivery thread end, when nothing waits and nothing can be posted any more. -/
def leave (live : Live α) : Live α :=
  match live.running, live.dispatcher.next? with
  | none, none => if live.dispatcher.isOpen then live else { live with isOver := true }
  | _, _ => live

/-- Let the thread go on that waits for the delivery thread to end. -/
def join (live : Live α) : List (Mark α) × Live α :=
  if live.isJoining && live.isOver then ([.dropped .caller], { live with isJoining := false })
  else ([], live)

/-- Take a turn. -/
def turn (turn : Turn α) (live : Live α) : List (Mark α) × Live α :=
  match turn with
  | .post work => live.postOutside work
  | .nested => live.nested
  | .answer => live.answer
  | .start => live.start
  | .finish => live.finish
  | .drop thread => live.drop thread
  | .leave => ([], live.leave)
  | .join => live.join

/-- The dispatcher rests: nothing happens any more, unless it is asked for from outside. -/
def Rests (live : Live α) : Prop :=
  ∀ next, next.isOwn = true → live.turn next = ([], live)

/-- Let a dispatcher work by a schedule. -/
def workBy (turns : List (Turn α)) (live : Live α) : List (Mark α) × Live α :=
  play turn turns live

end Live

end BridgeFinder.Dispatcher
