import BridgeFinder.Proofs.Runner.Parts
import BridgeFinder.Proofs.Search.Source

/-!
# What the four methods report

The sources of the four methods report nothing.  Their candidates are validated, and a validation
reports only the bridges that it has confirmed.
-/

namespace BridgeFinder

open BridgeFinder.Task (Always)

namespace Validation

variable {validation : Validation}

/-- If an event is reported, it is one by which the validation announces a bridge. -/
def Announces (validation : Validation) (activity : Activity) : Prop :=
  ∀ event, activity.event? = some event → ∃ address, event ∈ validation.announce address

theorem announces_of_unreported {activity : Activity} (unreported : activity.event? = none) :
    validation.Announces activity := by
  intro event reported
  rw [unreported] at reported
  cases reported

theorem announces_of_mem_report {address : Net.Ipv4} {bridge : Option Bridge} {activity : Activity}
    (member : activity ∈ validation.report address bridge) : validation.Announces activity := by
  rcases List.mem_cons.mp member with rfl | told
  · exact announces_of_unreported rfl
  · split at told
    · rcases List.mem_map.mp told with ⟨event, announced, rfl⟩
      rintro _ ⟨⟩
      exact ⟨address, announced⟩
    · cases told

/-- A move of a check lets be observed that the page is requested, that the check knows its result,
or that it tells it. -/
theorem signal_of_mem_moves {isCancelled : Bool} {check : Check} {move : Move}
    (member : move ∈ validation.moves isCancelled check) {activity : Activity}
    (signalled : activity ∈ move.signals) :
    activity = .request (url validation.configPath check.address) ∨
      (∃ bridge, activity = .resolved check.address bridge) ∨
      ∃ bridge, activity ∈ validation.report check.address bridge := by
  rcases check with ⟨address, sent, stage⟩
  cases stage with
  | asking =>
      simp only [moves, List.mem_append] at member
      rcases member with given | asked
      · split at given
        · rw [List.mem_singleton.mp given] at signalled
          exact .inr (.inl ⟨_, List.mem_singleton.mp signalled⟩)
        · cases given
      · split at asked
        · split at asked
          · cases asked
          · rw [List.mem_singleton.mp asked] at signalled
            exact .inr (.inl ⟨_, List.mem_singleton.mp signalled⟩)
        · rw [List.mem_singleton.mp asked] at signalled
          exact .inl (List.mem_singleton.mp signalled)
  | resolved bridge =>
      rw [List.mem_singleton.mp member] at signalled
      exact .inr (.inr ⟨bridge, signalled⟩)
  | told bridge | kept bridge =>
      rw [List.mem_singleton.mp member] at signalled
      cases signalled
  | counted bridge => cases member

/-- What all moves of checks let be observed is all that can be observed of them together. -/
theorem always_go {allowed : Activity → Prop}
    (moves : ∀ {isCancelled check move}, move ∈ validation.moves isCancelled check →
      ∀ activity ∈ move.signals, allowed activity) (batch : Batch) :
    Always allowed (fun _ => True) (validation.go batch) := by
  induction rank : batch.rank using Nat.strongRecOn generalizing batch with
  | ind _ ih =>
  subst rank
  rw [go]
  apply Always.check
  intro cancelled
  apply Always.among
  · split
    · exact .hold (.done trivial)
    · rename_i going
      exact .stall (ih _ (Batch.rank_cancel_lt (by simpa using going)) _ rfl)
  · rintro ⟨way, member⟩ -
    cases way with
    | finish => exact .done trivial
    | cancel =>
        rcases validation.isCancelled_of_cancel_mem_ways member with ⟨-, going⟩
        exact ih _ (Batch.rank_cancel_lt going) _ rfl
    | advance place move =>
        rcases validation.exists_of_advance_mem_ways member with ⟨check, here, moved⟩
        have less := Batch.rank_advance_lt here (validation.rank_lt_of_mem_moves moved)
        exact .emitAll (moves moved) (ih _ less _ rfl)

theorem always_of_moves {allowed : Activity → Prop}
    (moves : ∀ {isCancelled check move}, move ∈ validation.moves isCancelled check →
      ∀ activity ∈ move.signals, allowed activity) (candidates : List Bridge) :
    Always allowed (fun _ => True) (validation.validate candidates) := by
  apply Always.check
  intro cancelled
  dsimp only
  split
  · exact .done trivial
  · exact always_go moves _

/-- A validation reports only what it announces. -/
theorem always_announces (candidates : List Bridge) :
    Always validation.Announces (fun _ => True) (validation.validate candidates) := by
  apply always_of_moves
  intro _ _ _ member activity signalled
  rcases signal_of_mem_moves member signalled with rfl | ⟨bridge, rfl⟩ | ⟨bridge, told⟩
  · exact announces_of_unreported rfl
  · exact announces_of_unreported rfl
  · exact announces_of_mem_report told

end Validation

namespace Search

open Activity (IsProbe)

variable {π α : Type} {network : Network π} {settings : Settings} {validation : Validation}

/-- A search that first probes, and then goes on with what it has found. -/
theorem always_bind_announces {fine : α → Prop} {front : Task Activity α}
    {next : α → Task Activity (List Bridge)} (probes : Always IsProbe fine front)
    (announces : ∀ output, Always validation.Announces (fun _ => True) (next output)) :
    Always validation.Announces (fun _ => True) (front.bind next) :=
  (probes.mono (fun _ probe => Validation.announces_of_unreported probe.unreported)
    fun _ => id).bind fun output _ => announces output

theorem always_browse_announces {settings : Settings.Browse} :
    Always validation.Announces (fun _ => True) (browse network settings validation) := by
  unfold browse
  split
  · exact .done trivial
  · apply always_bind_announces Mdns.always_collect
    intro collected
    cases collected with
    | error => exact .done trivial
    | ok hosts => exact Validation.always_announces _

theorem always_scan_announces {settings : Settings.Scan} :
    Always validation.Announces (fun _ => True) (scan network settings validation) := by
  unfold scan
  split
  · exact .done trivial
  · split
    · exact .stall (.done trivial)
    · rename_i begun
      exact always_bind_announces (always_run? begun) fun reached => Validation.always_announces _

theorem always_multicast_announces {settings : Settings.Multicast} :
    Always validation.Announces (fun _ => True) (multicast network settings validation) := by
  unfold multicast
  split
  · exact .done trivial
  · split
    · exact always_bind_announces always_listen Validation.always_announces
    · exact .done trivial

theorem always_cloud_announces {configured : String} :
    Always validation.Announces (fun _ => True) (cloud configured validation) := by
  refine .orLeave (.done trivial) (.emit (Validation.announces_of_unreported rfl) ?_)
  unfold heed
  split
  · exact .stall (.done trivial)
  · exact Validation.always_announces _

/-- The search of a method reports only the bridges that it has found. -/
theorem always_ofKind_finds (session : Session) (kind : Kind) :
    Always (session.FindsOnly kind) (fun _ => True) (ofKind network settings session kind) := by
  have announces : Always (Search.validation network settings session kind).Announces
      (fun _ => True) (ofKind network settings session kind) := by
    cases kind with
    | nupnp => exact always_cloud_announces
    | upnp => exact always_multicast_announces
    | mdns => exact always_browse_announces
    | ipscan => exact always_scan_announces
  apply announces.mono
  · intro activity announced event reported
    rcases announced event reported with ⟨address, member⟩
    exact ⟨address.text, List.mem_singleton.mp member⟩
  · exact fun _ => id

end Search

theorem Registry.maker?_standard {π : Type} (network : Network π) (settings : Settings)
    (kind : Kind) :
    (Registry.standard network settings).maker? kind = some (Search.maker network settings kind) := by
  cases kind <;> rfl

/-- No search breaks down if the limit of the scan is no more than the most permits there can be. -/
theorem Search.breaksDown_eq_false {π : Type} (network : Network π) {settings : Settings}
    (possible : settings.scan.concurrency.toNat ≤ Scan.mostPermits) (kind : Kind) :
    breaksDown network settings kind = false := by
  rcases Scan.ofLimit?_eq_some possible with ⟨permits, isSome⟩
  simp [breaksDown, isSome]

/-- The four methods report on their searches, unless the scan breaks down. -/
theorem Registry.standard_reports {π : Type} (network : Network π) {settings : Settings}
    (possible : settings.scan.concurrency.toNat ≤ Scan.mostPermits) :
    (Registry.standard network settings).Reports := by
  intro kind make session method registered made
  rw [maker?_standard] at registered
  cases registered
  rw [Search.maker, Search.breaksDown_eq_false network possible] at made
  cases made
  exact ⟨_, rfl, Search.always_ofKind_finds session kind⟩

end BridgeFinder
