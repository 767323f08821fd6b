import BridgeFinder.Validation
import Mathlib.Data.List.Flatten
import Mathlib.Data.List.Perm.Basic

/-!
# The ledger of a validation

Every check of a validation has requested, resolved, told, kept and counted what its
stage says.  The ledger says that the signals of the validation, its confirmed bridges
and its number of outstanding checks are the sums of that over all checks, in whatever
order the checks have moved.  One move changes one check, and the ledger by what that
check gains.
-/

namespace BridgeFinder.Validation

/-! ## What a check has done -/

namespace Check

/-- The URL that a check has requested. -/
def requested (configPath : String) (check : Check) : List String :=
  if check.sent then [url configPath check.address] else []

/-- What a check has come to know. -/
def known (check : Check) : List (Net.Ipv4 × Option Bridge) :=
  match check.stage with
  | .asking => []
  | .resolved bridge | .told bridge | .kept bridge | .counted bridge => [(check.address, bridge)]

/-- What a check has told. -/
def told (check : Check) : List (Net.Ipv4 × Option Bridge) :=
  match check.stage with
  | .asking | .resolved _ => []
  | .told bridge | .kept bridge | .counted bridge => [(check.address, bridge)]

/-- The bridge that a check has put among the confirmed ones. -/
def kept (check : Check) : List Bridge :=
  match check.stage with
  | .asking | .resolved _ | .told _ => []
  | .kept bridge | .counted bridge => bridge.toList

/-- The check has been counted as over. -/
def isCounted (check : Check) : Bool :=
  match check.stage with
  | .counted _ => true
  | _ => false

end Check

variable {validation : Validation}

/-- What a check has come to know is the truth: it has gone by the answer to its request,
or it has been cancelled and given up. -/
def Truthful (validation : Validation) (isCancelled : Bool) (check : Check) : Prop :=
  ∀ address bridge, (address, bridge) ∈ check.known →
    check.sent = true ∧ bridge = validation.confirmed? address ∨
      bridge = none ∧ isCancelled = true

/-- A check whose knowledge is the truth has kept no other bridge than the one that is
confirmed at its address. -/
theorem Truthful.kept_sublist {isCancelled : Bool} {check : Check}
    (truthful : Truthful validation isCancelled check) :
    check.kept.Sublist (validation.confirmed? check.address).toList := by
  rcases check with ⟨address, sent, stage⟩
  cases stage with
  | asking | resolved | told => exact List.nil_sublist _
  | kept bridge | counted bridge =>
      rcases truthful address bridge (List.mem_singleton_self _) with ⟨-, rfl⟩ | ⟨rfl, -⟩
      · exact .refl _
      · exact List.nil_sublist _

/-- What a check gains by a move. -/
structure Gains (validation : Validation) (isCancelled : Bool) (check : Check) (move : Move) :
    Prop where
  address : move.check.address = check.address
  requested : move.check.requested validation.configPath =
    check.requested validation.configPath ++ move.signals.filterMap Activity.url?
  known : move.check.known = check.known ++ move.signals.filterMap Activity.resolved?
  told : move.check.told = check.told ++ move.signals.filterMap Activity.check?
  kept : move.check.kept = check.kept ++ move.found
  counted : check.isCounted = false ∧ move.check.isCounted = move.counts
  truthful : Truthful validation isCancelled check → Truthful validation isCancelled move.check

/-- A check that is reported is told, and no more than that. -/
theorem filterMap_report (validation : Validation) (address : Net.Ipv4)
    (bridge : Option Bridge) :
    (validation.report address bridge).filterMap Activity.url? = [] ∧
      (validation.report address bridge).filterMap Activity.resolved? = [] ∧
      (validation.report address bridge).filterMap Activity.check? = [(address, bridge)] := by
  cases bridge <;>
    simp [report, Activity.url?, Activity.resolved?, Activity.check?, List.filterMap_map]

/-- A check that resolves comes to know what it resolves with. -/
theorem gains_resolve {isCancelled : Bool} {address : Net.Ipv4} {sent : Bool}
    {bridge : Option Bridge}
    (truth : sent = true ∧ bridge = validation.confirmed? address ∨
      bridge = none ∧ isCancelled = true) :
    Gains validation isCancelled ⟨address, sent, .asking⟩
      (resolve ⟨address, sent, .asking⟩ bridge) where
  address := rfl
  requested := (List.append_nil _).symm
  known := rfl
  told := rfl
  kept := rfl
  counted := ⟨rfl, rfl⟩
  truthful _ := by
    rintro address' bridge' member
    rcases Prod.mk.inj (List.mem_singleton.mp member) with ⟨rfl, rfl⟩
    exact truth

/-- A move gains what it signals. -/
theorem gains_of_mem_moves {isCancelled : Bool} {check : Check} {move : Move}
    (member : move ∈ validation.moves isCancelled check) :
    Gains validation isCancelled check move := by
  rcases check with ⟨address, sent, stage⟩
  cases stage with
  | asking =>
      rcases List.mem_append.mp member with givesUp | goesOn
      · split at givesUp
        case isTrue cancelled =>
          obtain rfl := List.mem_singleton.mp givesUp
          exact gains_resolve (.inr ⟨rfl, cancelled⟩)
        case isFalse => cases givesUp
      cases sent with
      | true =>
          simp only [if_true] at goesOn
          split at goesOn
          · cases goesOn
          · obtain rfl := List.mem_singleton.mp goesOn
            exact gains_resolve (.inl ⟨rfl, rfl⟩)
      | false =>
          obtain rfl := List.mem_singleton.mp goesOn
          exact ⟨rfl, rfl, rfl, rfl, rfl, ⟨rfl, rfl⟩, nofun⟩
  | resolved bridge =>
      obtain rfl := List.mem_singleton.mp member
      rcases filterMap_report validation address bridge with ⟨url, resolved, told⟩
      exact ⟨rfl, by simp [url, Check.requested], by simp [resolved, Check.known],
        by simp [told, Check.told], rfl, ⟨rfl, rfl⟩, id⟩
  | told bridge =>
      obtain rfl := List.mem_singleton.mp member
      exact ⟨rfl, by simp [Check.requested], rfl, rfl, rfl, ⟨rfl, rfl⟩, id⟩
  | kept bridge =>
      obtain rfl := List.mem_singleton.mp member
      exact ⟨rfl, by simp [Check.requested], rfl, rfl, by simp [Check.kept], ⟨rfl, rfl⟩, id⟩
  | counted bridge => cases member

/-! ## What all checks have done -/

/-- If one member of a list gains something, so does the list. -/
theorem flatMap_set_perm {α β : Type} {gain : α → List β} {members : List α} {place : Nat}
    {old new : α} {more : List β} (found : members[place]? = some old)
    (gains : gain new = gain old ++ more) :
    ((members.set place new).flatMap gain).Perm (members.flatMap gain ++ more) := by
  induction members generalizing place with
  | nil => cases found
  | cons first rest ih =>
      cases place with
      | zero =>
          obtain rfl : first = old := by simpa using found
          simpa [gains] using List.perm_append_comm.append_left (gain first)
      | succ place =>
          simpa using (ih (by simpa using found)).append_left (gain first)

/-- The checks of some addresses have done what the signals say. -/
structure Ledger (validation : Validation) (addresses : List Net.Ipv4) (signals : List Activity)
    (token : Bool) (batch : Batch) : Prop where
  addresses : batch.checks.map Check.address = addresses
  requested : (signals.filterMap Activity.url?).Perm
    (batch.checks.flatMap (Check.requested validation.configPath))
  known : (signals.filterMap Activity.resolved?).Perm (batch.checks.flatMap Check.known)
  told : (signals.filterMap Activity.check?).Perm (batch.checks.flatMap Check.told)
  kept : batch.confirmed.Perm (batch.checks.flatMap Check.kept)
  counted : batch.outstanding + batch.checks.countP Check.isCounted = batch.checks.length
  isOver : batch.isOver = true ↔ batch.outstanding = 0
  truthful : ∀ check ∈ batch.checks, Truthful validation batch.isCancelled check
  isCancelled : batch.isCancelled = true → token = true

namespace Ledger

variable {addresses : List Net.Ipv4} {signals : List Activity} {token : Bool} {batch : Batch}

/-- Before the first move nothing has been done. -/
theorem ofAddresses (some : addresses ≠ []) :
    Ledger validation addresses [] token (.ofAddresses addresses) where
  addresses := by simp [Batch.ofAddresses, Function.comp_def]
  requested := by simp [Batch.ofAddresses, Check.requested, List.flatMap_map]
  known := by simp [Batch.ofAddresses, Check.known, List.flatMap_map]
  told := by simp [Batch.ofAddresses, Check.told, List.flatMap_map]
  kept := by simp [Batch.ofAddresses, Check.kept, List.flatMap_map]
  counted := by simp [Batch.ofAddresses, Check.isCounted, List.countP_map, Function.comp_def]
  isOver := by simpa [Batch.ofAddresses] using some
  truthful := by simp [Batch.ofAddresses, Truthful, Check.known]
  isCancelled := nofun

/-- Firing the token changes nothing. -/
theorem fire {after : Bool} (ledger : Ledger validation addresses signals token batch)
    (later : token = true → after = true) : Ledger validation addresses signals after batch :=
  { ledger with isCancelled := fun cancelled => later (ledger.isCancelled cancelled) }

/-- Cancelling the checks changes nothing but that. -/
theorem cancel (ledger : Ledger validation addresses signals true batch) :
    Ledger validation addresses signals true batch.cancel :=
  { ledger with
    truthful := fun check member address bridge known =>
      (ledger.truthful check member address bridge known).imp_right fun none => ⟨none.1, rfl⟩
    isCancelled := fun _ => rfl }

/-- A move is entered in the ledger. -/
theorem advance {place : Nat} {check : Check} {move : Move}
    (ledger : Ledger validation addresses signals token batch)
    (found : batch.checks[place]? = some check)
    (gains : Gains validation batch.isCancelled check move) :
    Ledger validation addresses (signals ++ move.signals) token (batch.advance place move) := by
  rcases List.getElem?_eq_some_iff.mp found with ⟨inside, here⟩
  have uncounted : batch.checks.countP Check.isCounted < batch.checks.length := by
    apply Nat.lt_of_le_of_ne List.countP_le_length
    intro all
    have counted := List.countP_eq_length.mp all check (List.mem_of_getElem? found)
    simp [gains.counted.1] at counted
  have tally : (batch.checks.set place move.check).countP Check.isCounted =
      batch.checks.countP Check.isCounted + if move.counts then 1 else 0 := by
    rw [List.countP_set inside, here, gains.counted.1, gains.counted.2]
    simp
  have balance := ledger.counted
  constructor
  · have bound : place < (batch.checks.map Check.address).length := by simpa using inside
    have same : check.address = (batch.checks.map Check.address)[place] := by simp [here]
    simp only [Batch.advance, List.map_set, gains.address]
    rw [same, List.set_getElem_self]
    exact ledger.addresses
  · rw [List.filterMap_append]
    exact (ledger.requested.append_right _).trans (flatMap_set_perm found gains.requested).symm
  · rw [List.filterMap_append]
    exact (ledger.known.append_right _).trans (flatMap_set_perm found gains.known).symm
  · rw [List.filterMap_append]
    exact (ledger.told.append_right _).trans (flatMap_set_perm found gains.told).symm
  · exact (ledger.kept.append_right _).trans (flatMap_set_perm found gains.kept).symm
  · simp only [Batch.advance, tally, List.length_set]
    split <;> omega
  · have closed := ledger.isOver
    cases counts : move.counts with
    | false => simpa [Batch.advance, counts] using closed
    | true =>
        simp only [Batch.advance, counts, if_true, Bool.true_and, Bool.or_eq_true, closed, beq_iff_eq]
        omega
  · intro other member
    rcases List.mem_or_eq_of_mem_set member with old | rfl
    · exact ledger.truthful other old
    · exact gains.truthful (ledger.truthful check (List.mem_of_getElem? found))
  · exact ledger.isCancelled

/-! ## What the ledger says -/

/-- No address is asked more often than it was given. -/
theorem requested_subperm (ledger : Ledger validation addresses signals token batch) :
    (signals.filterMap Activity.url?).Subperm (addresses.map (url validation.configPath)) := by
  rw [← ledger.addresses, List.map_map, List.map_eq_flatMap]
  apply ledger.requested.subperm.trans
  apply List.Sublist.subperm
  apply List.Sublist.flatMap_right _
  intro check _
  cases sent : check.sent <;> simp [Check.requested, sent]

/-- What is known of an address is what its answer says, unless the token has been
fired. -/
theorem known_eq (ledger : Ledger validation addresses signals token batch)
    {address : Net.Ipv4} {bridge : Option Bridge}
    (known : (address, bridge) ∈ signals.filterMap Activity.resolved?) :
    bridge = validation.confirmed? address ∨ bridge = none ∧ token = true := by
  rcases List.mem_flatMap.mp (ledger.known.mem_iff.mp known) with ⟨check, member, knows⟩
  rcases ledger.truthful check member address bridge knows with ⟨-, truth⟩ | ⟨none, cancelled⟩
  · exact .inl truth
  · exact .inr ⟨none, ledger.isCancelled cancelled⟩

section

variable (ledger : Ledger validation addresses signals token batch)
include ledger

/-- In a validation that is over, every check has been counted. -/
theorem exists_counted (closed : batch.isOver = true) {check : Check}
    (member : check ∈ batch.checks) : ∃ bridge, check.stage = .counted bridge := by
  have balance := ledger.counted
  have all : batch.checks.countP Check.isCounted = batch.checks.length := by
    have := ledger.isOver.mp closed
    omega
  have counted := List.countP_eq_length.mp all check member
  rcases check with ⟨address, sent, stage⟩
  cases stage with
  | counted bridge => exact ⟨bridge, rfl⟩
  | asking | resolved | told | kept => cases counted

/-- In a validation that is over, everything that is known has been told. -/
theorem known_told (closed : batch.isOver = true) :
    (signals.filterMap Activity.resolved?).Perm (signals.filterMap Activity.check?) := by
  have same : batch.checks.flatMap Check.known = batch.checks.flatMap Check.told := by
    apply List.flatMap_congr
    intro check member
    rcases ledger.exists_counted closed member with ⟨bridge, counted⟩
    simp [Check.told, Check.known, counted]
  have known := ledger.known
  rw [same] at known
  exact known.trans ledger.told.symm

/-- In a validation that is over, the confirmed bridges are those that have been told. -/
theorem confirmed_told (closed : batch.isOver = true) :
    batch.confirmed.Perm ((signals.filterMap Activity.check?).filterMap Prod.snd) := by
  have same : batch.checks.flatMap Check.kept =
      (batch.checks.flatMap Check.told).filterMap Prod.snd := by
    rw [List.filterMap_flatMap]
    apply List.flatMap_congr
    intro check member
    rcases ledger.exists_counted closed member with ⟨bridge, counted⟩
    cases bridge <;> simp [Check.told, Check.kept, counted]
  have kept := ledger.kept
  rw [same] at kept
  exact kept.trans (ledger.told.filterMap _).symm

/-- Only bridges that the answers describe are confirmed. -/
theorem confirmed_subperm :
    batch.confirmed.Subperm (addresses.filterMap validation.confirmed?) := by
  rw [← ledger.addresses, List.filterMap_map, List.filterMap_eq_flatMap_toList]
  apply ledger.kept.subperm.trans
  apply List.Sublist.subperm
  exact List.Sublist.flatMap_right _ fun check member => (ledger.truthful check member).kept_sublist

/-- A check that has been counted without being cancelled has sent its request. -/
theorem sent_of_isCounted (going : batch.isCancelled = false) {check : Check}
    (member : check ∈ batch.checks) (counted : check.isCounted = true) : check.sent = true := by
  rcases check with ⟨address, sent, stage⟩
  cases stage with
  | counted bridge =>
      rcases ledger.truthful _ member address bridge (List.mem_singleton_self _) with
        ⟨sent, -⟩ | ⟨-, cancelled⟩
      · exact sent
      · simp [going] at cancelled
  | asking | resolved | told | kept => cases counted

/-- Where every check has sent its request, every address has been asked. -/
theorem requested_of_sent (sent : ∀ check ∈ batch.checks, check.sent = true) :
    (signals.filterMap Activity.url?).Perm (addresses.map (url validation.configPath)) := by
  apply ledger.requested.trans
  apply List.Perm.of_eq
  rw [← ledger.addresses, List.map_map, List.map_eq_flatMap]
  exact List.flatMap_congr fun check member => by simp [Check.requested, sent check member]

/-- In a validation that is over and was not cancelled, every address has been asked, and
every bridge that the answers describe is confirmed. -/
theorem complete (closed : batch.isOver = true) (uncancelled : token = false) :
    (signals.filterMap Activity.url?).Perm (addresses.map (url validation.configPath)) ∧
      batch.confirmed.Perm (addresses.filterMap validation.confirmed?) := by
  have going : batch.isCancelled = false := by
    cases cancelled : batch.isCancelled with
    | false => rfl
    | true => simp [ledger.isCancelled cancelled] at uncancelled
  have truth {check : Check} (member : check ∈ batch.checks) :
      check.sent = true ∧ check.stage = .counted (validation.confirmed? check.address) := by
    rcases ledger.exists_counted closed member with ⟨bridge, counted⟩
    rcases ledger.truthful check member check.address bridge (by simp [Check.known, counted]) with
      ⟨sent, rfl⟩ | ⟨-, cancelled⟩
    · exact ⟨sent, counted⟩
    · simp [going] at cancelled
  constructor
  · exact ledger.requested_of_sent fun check member => (truth member).1
  · apply ledger.kept.trans
    apply List.Perm.of_eq
    rw [← ledger.addresses, List.filterMap_map, List.filterMap_eq_flatMap_toList]
    exact List.flatMap_congr fun check member => by simp [Check.kept, truth member]

end

end Ledger

end BridgeFinder.Validation
