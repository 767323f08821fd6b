import BridgeFinder.Proofs.Net.Private
import BridgeFinder.Proofs.Search.Reports

/-!
# Where a scan goes

A scan begins at the first interface of the host with a private address, and there it tries the
hosts of its subnet.  All of these are private, so nothing else is connected to, and no page is
requested from anywhere else.
-/

namespace BridgeFinder

open BridgeFinder.Task (Always)

/-- A validation does not reach hosts by itself. -/
theorem Validation.unreached_of_mem_moves {validation : Validation} {isCancelled : Bool}
    {check : Check} {move : Move} (member : move ∈ validation.moves isCancelled check)
    (activity : Activity) (signalled : activity ∈ move.signals) : activity.host? = none := by
  rcases signal_of_mem_moves member signalled with rfl | ⟨bridge, rfl⟩ | ⟨bridge, told⟩
  · rfl
  · rfl
  · rcases List.mem_cons.mp told with rfl | announced
    · rfl
    · split at announced
      · rcases List.mem_map.mp announced with ⟨event, -, rfl⟩
        rfl
      · cases announced

namespace Search

variable {π : Type} {network : Network π} {validation : Validation} {settings : Settings.Scan}

/-- A scan reaches only hosts of the subnet. -/
theorem always_scan_reached :
    Always (fun activity => ∀ host, activity.host? = some host →
      ∃ interface, network.interface = .ok interface ∧ host ∈ Net.subnetHosts interface)
      (fun _ => True) (scan network settings validation) := by
  unfold scan
  split
  · exact .done trivial
  rename_i interface present
  split
  · exact .stall (.done trivial)
  · rename_i scan begun
    have front : Always (fun activity => ∀ host, activity.host? = some host →
        ∃ interface, network.interface = .ok interface ∧ host ∈ Net.subnetHosts interface)
        (fun _ => True) scan := by
      apply (Scan.always_reached begun).mono
      · rintro _ ⟨host, member, rfl⟩ _ ⟨⟩
        exact ⟨interface, present, member⟩
      · exact fun _ _ => trivial
    apply front.bind
    intro reached _
    apply Validation.always_of_moves
    intro _ _ _ member activity signalled host reached
    rw [Validation.unreached_of_mem_moves member activity signalled] at reached
    cases reached

section

variable {listed : List Net.Listed} {interface : Net.Interface} {address : Net.Ipv4}

theorem interface_eq_ok : ({ network with interfaces := .ok listed } : Network π).interface =
    .ok interface ↔ Net.IsFirst listed interface := by
  rw [← Net.firstPrivate?_eq_some]
  simp only [Network.interface]
  cases Net.firstPrivate? listed with
  | some first => simp
  | none => simp

theorem interface_eq_error : ({ network with interfaces := .ok listed } : Network π).interface =
    .error .noInterface ↔ ∀ interface, .ipv4 interface ∈ listed → ¬ interface.Qualifies := by
  rw [← Net.firstPrivate?_eq_none]
  simp only [Network.interface]
  cases Net.firstPrivate? listed with
  | some first => simp
  | none => simp

/-- The hosts of the subnet of the first interface are private. -/
theorem isSetAside_of_isFirst (first : Net.IsFirst listed interface)
    (member : address ∈ Net.subnetHosts interface) :
    address.IsSetAside ∧ address ≠ interface.address :=
  Net.isSetAside_of_mem_subnetHosts first.1.setAside member

end

/-- A scan does not leave the private address space, whatever interfaces the host lists.  It begins
at the first one that is no loopback and has a private address, and there is a failure exactly if
there is none.  All hosts of the subnet of that interface are private and other than the interface.
By whatever schedule, the scan reaches only such hosts, and requests only their configuration
documents. -/
theorem scan_private (network : Network π) (listed : List Net.Listed) (settings : Settings.Scan)
    (validation : Validation) :
    let network := { network with interfaces := .ok listed }
    (∀ interface, network.interface = .ok interface ↔ Net.IsFirst listed interface) ∧
    (network.interface = .error .noInterface ↔
      ∀ interface, .ipv4 interface ∈ listed → ¬ interface.Qualifies) ∧
    (∀ interface, network.interface = .ok interface →
      ∀ address ∈ Net.subnetHosts interface,
        address.IsSetAside ∧ address ≠ interface.address) ∧
    ∀ turns token, ∀ activity ∈
        Task.signals ((scan network settings validation).runBy turns token).1,
      (∀ host, activity.host? = some host →
        host.IsSetAside ∧ ∃ interface, network.interface = .ok interface ∧
          host ≠ interface.address) ∧
      ∀ page, activity.url? = some page → ∃ host : Net.Ipv4,
        host.IsSetAside ∧ (∃ interface, network.interface = .ok interface ∧
          host ≠ interface.address) ∧
          page = Validation.url validation.configPath host := by
  intro network
  have hosts (interface : Net.Interface) (present : network.interface = .ok interface) :
      ∀ address ∈ Net.subnetHosts interface,
        address.IsSetAside ∧ address ≠ interface.address :=
    fun _ => isSetAside_of_isFirst (interface_eq_ok.mp present)
  have within (interface : Net.Interface) (host : Net.Ipv4)
      (present : network.interface = .ok interface) (inner : host ∈ Net.subnetHosts interface) :
      host.IsSetAside ∧
        ∃ interface, network.interface = .ok interface ∧ host ≠ interface.address := by
    rcases hosts interface present host inner with ⟨setAside, other⟩
    exact ⟨setAside, interface, present, other⟩
  refine ⟨fun interface => interface_eq_ok, interface_eq_error, hosts, ?_⟩
  intro turns token activity member
  have course := Task.course_runBy turns token (scan network settings validation)
  constructor
  · intro host reached
    rcases (always_scan_reached _ _ _ course).1 activity member host reached with
      ⟨interface, present, inner⟩
    exact within interface host present inner
  · intro page requested
    have asks := always_scan (fun interface host present inner _ =>
      within interface host present inner) _ _ _ course
    rcases asks.1 activity member page requested with ⟨host, ⟨setAside, other⟩, same⟩
    exact ⟨host, setAside, other, same⟩

end Search

end BridgeFinder
