import BridgeFinder.Proofs.Runner.Parts
import BridgeFinder.Proofs.Search.Source
import BridgeFinder.Proofs.Task.Yields

/-!
# What the four methods find

A validation announces exactly the candidates that it has told to be bridges, and these are the
bridges that it returns.  So the addresses under which a method reports bridges are those of the
bridges that its search ends with, each as often as it is returned.
-/

namespace BridgeFinder

open BridgeFinder.Task (Always Course Yields)

/-- The address that is sent with the event that a bridge has been found. -/
def Telemetry.Event.bridgeIp? (event : Telemetry.Event) : Option String :=
  event.fields.lookup "bridge ip"

/-- The addresses of bridges that are sent with events. -/
def Telemetry.bridgeIps (events : List Telemetry.Event) : List String :=
  events.filterMap Telemetry.Event.bridgeIp?

open Telemetry (bridgeIps)

@[simp]
theorem bridgeIp?_bridgeFound (session : Session) (kind : Kind) (ip : String) :
    (session.bridgeFound kind ip).bridgeIp? = some ip :=
  rfl

namespace Validation

variable {validation : Validation}

/-- The events that announce what a check has told. -/
def announced (validation : Validation) (told : Net.Ipv4 × Option Bridge) : List Telemetry.Event :=
  if told.2.isSome then validation.announce told.1 else []

/-- The events among activities announce what checks have told in them. -/
def Balances (validation : Validation) (activities : List Activity) : Prop :=
  Activity.events activities = (activities.filterMap Activity.check?).flatMap validation.announced

theorem balances_nil : validation.Balances [] :=
  rfl

theorem Balances.append {first second : List Activity} (one : validation.Balances first)
    (other : validation.Balances second) : validation.Balances (first ++ second) := by
  rw [Balances, Activity.events_append, List.filterMap_append, List.flatMap_append, ← one, ← other]

theorem events_map_report (events : List Telemetry.Event) :
    Activity.events (events.map .report) = events := by
  induction events with
  | nil => rfl
  | cons event events ih => simp [ih]

/-- A check that tells what it knows announces it. -/
theorem balances_report (address : Net.Ipv4) (bridge : Option Bridge) :
    validation.Balances (validation.report address bridge) := by
  have told := (filterMap_report validation address bridge).2.2
  rw [Balances, told, List.flatMap_singleton, announced]
  cases bridge with
  | none => rfl
  | some bridge => exact events_map_report (validation.announce address)

/-- All other moves tell nothing and report nothing. -/
theorem balances_of_mem_moves {isCancelled : Bool} {check : Check} {move : Move}
    (member : move ∈ validation.moves isCancelled check) : validation.Balances move.signals := by
  rcases check with ⟨address, sent, stage⟩
  cases stage with
  | asking =>
      simp only [moves, List.mem_append] at member
      rcases member with givesUp | goesOn
      · split at givesUp
        · obtain rfl := List.mem_singleton.mp givesUp
          rfl
        · cases givesUp
      · split at goesOn
        · split at goesOn
          · cases goesOn
          · obtain rfl := List.mem_singleton.mp goesOn
            rfl
        · obtain rfl := List.mem_singleton.mp goesOn
          rfl
  | resolved bridge =>
      obtain rfl := List.mem_singleton.mp member
      exact balances_report address bridge
  | told bridge | kept bridge =>
      obtain rfl := List.mem_singleton.mp member
      exact balances_nil
  | counted bridge => cases member

theorem yields_go_balances (batch : Batch) :
    Yields (fun row _ => validation.Balances row) (validation.go batch) := by
  induction rank : batch.rank using Nat.strongRecOn generalizing batch with
  | ind _ ih =>
  subst rank
  rw [go]
  apply Yields.check
  intro cancelled
  apply Yields.among
  · split
    · exact .hold (.done balances_nil)
    · rename_i going
      exact .stall (ih _ (Batch.rank_cancel_lt (by simpa using going)) _ rfl)
  · rintro ⟨way, member⟩ -
    cases way with
    | finish => exact .done balances_nil
    | cancel =>
        rcases validation.isCancelled_of_cancel_mem_ways member with ⟨-, going⟩
        exact ih _ (Batch.rank_cancel_lt going) _ rfl
    | advance place move =>
        rcases validation.exists_of_advance_mem_ways member with ⟨check, here, moved⟩
        have less := Batch.rank_advance_lt here (validation.rank_lt_of_mem_moves moved)
        exact .emitAll ((ih _ less _ rfl).mono fun _ _ => (balances_of_mem_moves moved).append)

/-- A validation that has returned has announced what its checks have told. -/
theorem yields_balances (candidates : List Bridge) :
    Yields (fun row _ => validation.Balances row) (validation.validate candidates) := by
  apply Yields.check
  intro cancelled
  dsimp only
  split
  · exact .done balances_nil
  · exact yields_go_balances _

/-- A bridge that is confirmed at an address has its text. -/
theorem ip_of_confirmed? {address : Net.Ipv4} {bridge : Bridge}
    (found : validation.confirmed? address = some bridge) : bridge.ip = address.text :=
  (Search.confirmedAt_of_confirmed? found).ip

/-- The text of the address at which a check has told that there is a bridge. -/
def bridgeText? (told : Net.Ipv4 × Option Bridge) : Option String :=
  told.2.map fun _ => told.1.text

/-- The addresses at which bridges have been told are those of the confirmed bridges. -/
theorem Ledger.ips_perm {addresses : List Net.Ipv4} {signals : List Activity} {token : Bool}
    {batch : Batch} (ledger : Ledger validation addresses signals token batch)
    (closed : batch.isOver = true) :
    ((signals.filterMap Activity.check?).filterMap bridgeText?).Perm
      (batch.confirmed.map Bridge.ip) := by
  have same : (signals.filterMap Activity.check?).filterMap bridgeText? =
      ((signals.filterMap Activity.check?).filterMap Prod.snd).map Bridge.ip := by
    rw [List.map_filterMap]
    apply List.filterMap_congr
    rintro ⟨address, bridge⟩ told
    have known := (ledger.known_told closed).mem_iff.mpr told
    -- a check that knows anything knows what is confirmed at its address, or was cut short
    rcases ledger.known_eq known with truth | ⟨rfl, -⟩
    · cases bridge with
      | none => rfl
      | some bridge => exact congrArg some (ip_of_confirmed? truth.symm).symm
    · rfl
  rw [same]
  exact ((ledger.confirmed_told closed).map Bridge.ip).symm

end Validation

namespace Search

variable {π α : Type} {network : Network π} {settings : Settings} {session : Session} {kind : Kind}

/-- The addresses that are reported are those of the bridges that are returned. -/
def Finds (row : List Activity) (output : List Bridge) : Prop :=
  (bridgeIps (Activity.events row)).Perm (output.map Bridge.ip)

theorem finds_nil : Finds [] [] :=
  .refl _

/-- A validation that announces each confirmed bridge by its address reports what it returns. -/
theorem yields_validated (candidates : List Bridge) :
    Yields Finds ((validation network settings session kind).validate candidates) := by
  intro token marks last output course ended
  have balances := Validation.yields_balances candidates token marks last output course ended
  have ips : bridgeIps (Activity.events (Task.signals marks)) =
      ((Task.signals marks).filterMap Activity.check?).filterMap Validation.bridgeText? := by
    rw [balances, bridgeIps, List.filterMap_flatMap]
    refine Eq.trans ?_ (List.filterMap_eq_flatMap_toList _ _).symm
    apply List.flatMap_congr
    rintro ⟨address, bridge⟩ -
    cases bridge <;> rfl
  rw [Finds, ips]
  cases Validation.progress_of_course course with
  | unasked => cases ended
  | skipped silent =>
      obtain rfl : [] = output := Task.done.inj ended
      rw [silent]
      exact .refl _
  | begun _ stands =>
      rcases stands.ended output ended with ⟨rfl, closed, rfl⟩
      have ledger := stands.ledger
      rw [List.append_nil] at ledger
      exact ledger.ips_perm closed

/-- A search that first probes reports what it returns if the rest of it does. -/
theorem yields_bind {fine : α → Prop} {front : Task Activity α}
    {next : α → Task Activity (List Bridge)} (probes : Always Activity.IsProbe fine front)
    (yields : ∀ output, Yields Finds (next output)) : Yields Finds (front.bind next) := by
  refine .bind probes ?_ fun output _ => yields output
  intro row more output unreported finds
  have silent : Activity.events row = [] :=
    List.filterMap_eq_nil_iff.mpr fun activity member => (unreported activity member).unreported
  rw [Finds, Activity.events_append, silent]
  exact finds

/-- Each of the four methods reports what its search returns. -/
theorem yields_ofKind : Yields Finds (ofKind network settings session kind) := by
  cases kind with
  | nupnp =>
      refine .orLeave (.done finds_nil) (.emit ?_)
      unfold heed
      split
      · exact .stall (.done finds_nil)
      · exact yields_validated _
  | upnp =>
      simp only [ofKind]
      unfold multicast
      split
      · exact .done finds_nil
      · split
        · exact yields_bind always_listen yields_validated
        · exact .done finds_nil
  | mdns =>
      simp only [ofKind]
      unfold browse
      split
      · exact .done finds_nil
      · apply yields_bind Mdns.always_collect
        intro collected
        cases collected with
        | error => exact .done finds_nil
        | ok hosts => exact yields_validated _
  | ipscan =>
      simp only [ofKind]
      unfold scan
      split
      · exact .done finds_nil
      · split
        · exact .stall (.done finds_nil)
        · rename_i begun
          exact yields_bind (always_run? begun) fun reached => yields_validated _

end Search

end BridgeFinder
