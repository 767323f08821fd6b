import BridgeFinder.Activity
import BridgeFinder.ConfigDocument
import BridgeFinder.Http
import BridgeFinder.Task

/-!
# Validation

A candidate becomes a result only when its configuration document shows that it is
a bridge.  All candidates are checked at the same time: each check sends one
request, resolves with the answer to it, tells what it has found, puts its bridge
among the confirmed ones and counts itself as over.  The check that is counted last
ends the validation.  Which check goes on is up to the schedule.

When the validation is cancelled, so are its checks.  A cancelled check whose
request is under way may still go by an answer that arrives at that very moment.
-/

namespace BridgeFinder

/-- What the checks of a validation have in common: the web that they ask, the path
of the configuration document, and the events that report a confirmed bridge. -/
structure Validation where
  web : Http.Web
  configPath : String
  announce : Net.Ipv4 → List Telemetry.Event := fun _ => []

namespace Validation

/-- The URL of a device's configuration document. -/
def url (configPath : String) (address : Net.Ipv4) : String :=
  "http://" ++ address.text ++ configPath

/-- The bridge that the answer of a device describes, if it describes one. -/
def verdict? (address : Net.Ipv4) (answer : Http.Answer) : Option Bridge :=
  answer.body?.bind (confirm? address.text)

/-- The addresses of candidates.  A candidate whose address cannot be read is
dropped. -/
def addresses (candidates : List Bridge) : List Net.Ipv4 :=
  candidates.filterMap fun candidate => Net.Ipv4.parse? candidate.ip

/-- How far a check has come. -/
inductive Stage where
  /-- It waits for an answer. -/
  | asking
  /-- It knows whether the device is a bridge. -/
  | resolved (bridge : Option Bridge)
  /-- It has told what it knows. -/
  | told (bridge : Option Bridge)
  /-- Its bridge is among the confirmed ones. -/
  | kept (bridge : Option Bridge)
  /-- It has been counted as over. -/
  | counted (bridge : Option Bridge)
deriving DecidableEq, Repr

/-- The number of moves that a check makes at most after it has sent its request. -/
def Stage.rank : Stage → Nat
  | asking => 4
  | resolved _ => 3
  | told _ => 2
  | kept _ => 1
  | counted _ => 0

/-- The check of one address. -/
structure Check where
  address : Net.Ipv4
  /-- Its request has been sent. -/
  sent : Bool := false
  stage : Stage := .asking
deriving DecidableEq, Repr

/-- The number of moves that a check makes at most. -/
def Check.rank (check : Check) : Nat :=
  check.stage.rank + if check.sent then 0 else 1

/-- A move of a check. -/
structure Move where
  /-- What can be observed of it. -/
  signals : List Activity := []
  /-- The check after it. -/
  check : Check
  /-- The bridges that it adds to the confirmed ones. -/
  found : List Bridge := []
  /-- It counts the check as over. -/
  counts : Bool := false

/-- The checks of a validation under way. -/
structure Batch where
  checks : List Check
  /-- The number of checks that have not been counted as over. -/
  outstanding : Nat
  confirmed : List Bridge := []
  /-- The check that was counted last has ended the validation. -/
  isOver : Bool := false
  /-- The checks have been cancelled. -/
  isCancelled : Bool := false

namespace Batch

/-- The checks of addresses, before the first move. -/
def ofAddresses (addresses : List Net.Ipv4) : Batch where
  checks := addresses.map fun address => { address }
  outstanding := addresses.length

/-- Cancel every check. -/
def cancel (batch : Batch) : Batch :=
  { batch with isCancelled := true }

/-- Let the check at the given place move. -/
def advance (place : Nat) (move : Move) (batch : Batch) : Batch :=
  { batch with
    checks := batch.checks.set place move.check
    confirmed := batch.confirmed ++ move.found
    outstanding := if move.counts then batch.outstanding - 1 else batch.outstanding
    isOver := batch.isOver || (move.counts && batch.outstanding == 1) }

/-- The number of moves that several checks make at most. -/
def rankOf (checks : List Check) : Nat :=
  checks.foldr (fun check total => check.rank + total) 0

/-- The number of moves that are left at most. -/
def rank (batch : Batch) : Nat :=
  rankOf batch.checks + if batch.isCancelled then 0 else 1

end Batch

/-- A way for a validation to go on. -/
inductive Way where
  /-- The confirmed bridges are returned. -/
  | finish
  /-- The checks are cancelled. -/
  | cancel
  /-- The check at the given place moves. -/
  | advance (place : Nat) (move : Move)

variable (validation : Validation)

/-- What becomes of the request for the configuration document of a device. -/
def answer (address : Net.Ipv4) : Http.Answer :=
  validation.web (url validation.configPath address)

/-- The bridge that is confirmed at an address, if there is one. -/
def confirmed? (address : Net.Ipv4) : Option Bridge :=
  verdict? address (validation.answer address)

/-- The move by which a check comes to know whether its device is a bridge. -/
def resolve (check : Check) (bridge : Option Bridge) : Move where
  signals := [.resolved check.address bridge]
  check := { check with stage := .resolved bridge }

/-- What can be observed when a check tells what it knows. -/
def report (address : Net.Ipv4) (bridge : Option Bridge) : List Activity :=
  .checked address bridge ::
    if bridge.isSome then (validation.announce address).map .report else []

/-- The moves that a check can make next.  One that has been cancelled may give up,
before or after it has sent its request. -/
def moves (isCancelled : Bool) (check : Check) : List Move :=
  match check.stage with
  | .asking =>
      (if isCancelled then [resolve check none] else []) ++
      if check.sent then
        if validation.answer check.address = .silence then []
        else [resolve check (validation.confirmed? check.address)]
      else
        [{ signals := [.request (url validation.configPath check.address)]
           check := { check with sent := true } }]
  | .resolved bridge =>
      [{ signals := validation.report check.address bridge
         check := { check with stage := .told bridge } }]
  | .told bridge =>
      [{ check := { check with stage := .kept bridge }, found := bridge.toList }]
  | .kept bridge =>
      [{ check := { check with stage := .counted bridge }, counts := true }]
  | .counted _ => []

/-- The ways for a validation to go on. -/
def ways (cancelled : Bool) (batch : Batch) : List Way :=
  (if batch.isOver then [.finish] else []) ++
  (if cancelled && !batch.isCancelled then [.cancel] else []) ++
  batch.checks.zipIdx.flatMap fun (check, place) =>
    (validation.moves batch.isCancelled check).map (.advance place)

/-- A move brings its check closer to the end. -/
theorem rank_lt_of_mem_moves {isCancelled : Bool} {check : Check} {move : Move}
    (h : move ∈ validation.moves isCancelled check) : move.check.rank < check.rank := by
  obtain ⟨address, sent, stage⟩ := check
  cases stage with
  | asking =>
      cases sent <;> simp only [moves, List.mem_append] at h
      · rcases h with h | h
        · split at h <;> simp_all [resolve, Check.rank, Stage.rank]
        · simp_all [Check.rank, Stage.rank]
      · rcases h with h | h <;> split at h <;> simp_all [resolve, Check.rank, Stage.rank]
  | resolved bridge => simp_all [moves, Check.rank, Stage.rank]
  | told bridge => simp_all [moves, Check.rank, Stage.rank]
  | kept bridge => simp_all [moves, Check.rank, Stage.rank]
  | counted bridge => simp [moves] at h

/-- A way that moves a check is a move of the check at that place. -/
theorem exists_of_advance_mem_ways {cancelled : Bool} {batch : Batch} {place : Nat} {move : Move}
    (h : .advance place move ∈ validation.ways cancelled batch) :
    ∃ check, batch.checks[place]? = some check ∧
      move ∈ validation.moves batch.isCancelled check := by
  simp only [ways, List.mem_append, List.mem_flatMap, List.mem_map, Way.advance.injEq] at h
  rcases h with (h | h) | ⟨⟨check, i⟩, member, found, foundMem, rfl, rfl⟩
  · split at h <;> simp at h
  · split at h <;> simp at h
  · exact ⟨check, List.mk_mem_zipIdx_iff_getElem?.mp member, foundMem⟩

/-- A way that cancels the checks is open only once. -/
theorem isCancelled_of_cancel_mem_ways {cancelled : Bool} {batch : Batch}
    (h : .cancel ∈ validation.ways cancelled batch) :
    cancelled = true ∧ batch.isCancelled = false := by
  simp only [ways, List.mem_append, List.mem_flatMap, List.mem_map] at h
  rcases h with (h | h) | ⟨_, _, _, _, h⟩
  · split at h <;> simp at h
  · split at h <;> simp_all
  · cases h

/-- Replacing a check by one of a lower rank lowers the rank of all checks. -/
theorem Batch.rankOf_set_lt {checks : List Check} {place : Nat} {check next : Check}
    (found : checks[place]? = some check) (less : next.rank < check.rank) :
    rankOf (checks.set place next) < rankOf checks := by
  induction checks generalizing place with
  | nil => simp at found
  | cons first rest ih =>
      cases place with
      | zero =>
          obtain rfl : first = check := by simpa using found
          exact Nat.add_lt_add_right less _
      | succ place => exact Nat.add_lt_add_left (ih (by simpa using found)) _

/-- Moving a check brings the batch closer to the end. -/
theorem Batch.rank_advance_lt {batch : Batch} {place : Nat} {check : Check} {move : Move}
    (found : batch.checks[place]? = some check) (less : move.check.rank < check.rank) :
    (batch.advance place move).rank < batch.rank :=
  Nat.add_lt_add_right (rankOf_set_lt found less) _

/-- Cancelling the checks brings the batch closer to the end. -/
theorem Batch.rank_cancel_lt {batch : Batch} (h : batch.isCancelled = false) :
    batch.cancel.rank < batch.rank := by
  simp [Batch.rank, Batch.cancel, h]

/-- Go on with a validation.  Where no check can move, it waits; a batch that has not
been cancelled then waits for answers that never come. -/
def go (batch : Batch) : Task Activity (List Bridge) :=
  .check fun cancelled =>
    .among (validation.ways cancelled batch).attach
      (if batch.isCancelled then .hold (.done batch.confirmed)
        else .stall (go batch.cancel))
      fun
        | ⟨.finish, _⟩ => .done batch.confirmed
        | ⟨.cancel, _⟩ => go batch.cancel
        | ⟨.advance place move, _⟩ => .emitAll move.signals (go (batch.advance place move))
termination_by batch.rank
decreasing_by
  · exact Batch.rank_cancel_lt (by simpa using ‹¬ batch.isCancelled = true›)
  · exact Batch.rank_cancel_lt (validation.isCancelled_of_cancel_mem_ways ‹_›).2
  · obtain ⟨check, found, moved⟩ := validation.exists_of_advance_mem_ways ‹_›
    exact Batch.rank_advance_lt found (validation.rank_lt_of_mem_moves moved)

/-- Check candidates.  Nothing is done if there is none with an address, or if the
search has been cancelled before. -/
def validate (candidates : List Bridge) : Task Activity (List Bridge) :=
  .check fun cancelled =>
    let addresses := addresses candidates
    if addresses.isEmpty || cancelled then .done []
    else validation.go (.ofAddresses addresses)

/-- Check a single address. -/
def check (address : Net.Ipv4) : Task Activity (Option Bridge) :=
  (validation.go (.ofAddresses [address])).map List.head?

end Validation

end BridgeFinder
