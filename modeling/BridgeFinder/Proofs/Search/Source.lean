import BridgeFinder.Proofs.ConfigDocument
import BridgeFinder.Proofs.Mdns.Collect
import BridgeFinder.Proofs.Net.Ipv4
import BridgeFinder.Proofs.Scan
import BridgeFinder.Proofs.Validation.Account
import BridgeFinder.Search

/-!
# The sources of the four methods

Each method has a source of its own that produces the addresses of its candidates: what
the responder has seen, the hosts of the subnet that accept connections, the responses
that were heard, and the list of the cloud.  Only such addresses are asked, and only
bridges that are confirmed there are found.
-/

namespace BridgeFinder.Search

open BridgeFinder.Task (Always)
open Activity (IsOffline IsProbe)

variable {π : Type} {network : Network π} {settings : Settings}

/-- The source of a method produces an address. -/
def Produces (network : Network π) (settings : Settings) (kind : Kind) (address : Net.Ipv4) :
    Prop :=
  match kind with
  | .mdns => ∃ start host, network.responderState = .ok start ∧
      network.responder.Sees start host address
  | .ipscan => ∃ interface, network.interface = .ok interface ∧
      address ∈ Net.subnetHosts interface ∧ network.accepts address = true
  | .upnp => ∃ interface heard, network.interface = .ok interface ∧ network.binds = true ∧
      heard <+: network.datagrams ∧
      address ∈ Validation.addresses (Ssdp.candidatesOf (heard.map datagramText))
  | .nupnp => address ∈ Validation.addresses
      (listed (network.web (Cloud.requestUrl settings.cloud.url)))

/-- A bridge is confirmed at an address: the text of the address is its own, and its
configuration document there describes it. -/
structure ConfirmedAt (web : Http.Web) (configPath : String) (address : Net.Ipv4)
    (bridge : Bridge) : Prop where
  ip : bridge.ip = address.text
  /-- The text can be read back. -/
  canonical : Net.Ipv4.parse? bridge.ip = some address
  /-- The document is answered with success and describes the bridge. -/
  answered : ∃ response, web ("http://" ++ bridge.ip ++ configPath) = .response response ∧
    Http.isSuccess response.status = true ∧ confirm? bridge.ip response.body = some bridge
  /-- The bridge has an id. -/
  named : bridge.uniqueId ≠ ""
  /-- The id has no small letters. -/
  raised : Text.IsRaised bridge.uniqueId

theorem body?_eq_some {answer : Http.Answer} {body : String} (read : answer.body? = some body) :
    ∃ response, answer = .response response ∧ Http.isSuccess response.status = true ∧
      response.body = body := by
  cases answer with
  | response response =>
      simp only [Http.Answer.body?] at read
      split at read
      · exact ⟨response, rfl, ‹_›, Option.some.inj read⟩
      · cases read
  | failure | silence => cases read

/-- What a validation confirms at an address is confirmed there. -/
theorem confirmedAt_of_confirmed? {validation : Validation} {address : Net.Ipv4} {bridge : Bridge}
    (found : validation.confirmed? address = some bridge) :
    ConfirmedAt validation.web validation.configPath address bridge := by
  rcases Option.bind_eq_some_iff.mp found with ⟨body, read, confirmed⟩
  rcases body?_eq_some read with ⟨response, answered, success, rfl⟩
  rcases confirm?_spec confirmed with ⟨same, named, raised⟩
  have document : "http://" ++ bridge.ip ++ validation.configPath =
      Validation.url validation.configPath address := by
    rw [same, Validation.url]
  constructor
  · exact same
  · rw [same]
    exact address.parse?_text
  · rw [document, same]
    exact ⟨response, answered, success, confirmed⟩
  · exact named
  · exact raised

/-! ## Validating what a source produces -/

section

variable {produces : Net.Ipv4 → Prop} {validation : Validation}

/-- If a page is requested, it is the configuration document at an address that the source
produces. -/
def AsksOnly (produces : Net.Ipv4 → Prop) (configPath : String) (activity : Activity) : Prop :=
  ∀ page, activity.url? = some page →
    ∃ address, produces address ∧ page = Validation.url configPath address

/-- All bridges are confirmed at addresses that the source produces. -/
def FindsOnly (produces : Net.Ipv4 → Prop) (web : Http.Web) (configPath : String)
    (bridges : List Bridge) : Prop :=
  ∀ bridge ∈ bridges, ∃ address, produces address ∧ ConfirmedAt web configPath address bridge

theorem asksOnly_of_isOffline {configPath : String} {activity : Activity}
    (offline : IsOffline activity) : AsksOnly produces configPath activity := by
  intro page requested
  rw [offline] at requested
  cases requested

/-- Nothing is found where nothing is returned. -/
theorem always_none :
    Always (AsksOnly produces validation.configPath)
      (FindsOnly produces validation.web validation.configPath) (.done []) :=
  .done nofun

/-- Validating candidates of a source asks only there and finds only there. -/
theorem always_validated {candidates : List Bridge}
    (produced : ∀ address ∈ Validation.addresses candidates, produces address) :
    Always (AsksOnly produces validation.configPath)
      (FindsOnly produces validation.web validation.configPath)
      (validation.validate candidates) := by
  apply (Validation.always_validate candidates).mono
  · intro activity asks page requested
    rcases asks page requested with ⟨address, given, same⟩
    exact ⟨address, produced address given, same⟩
  · intro output finds bridge member
    rcases finds bridge member with ⟨address, given, found⟩
    exact ⟨address, produced address given, confirmedAt_of_confirmed? found⟩

/-- A search that first comes by candidates offline, and validates them. -/
theorem always_bind_validated {α : Type} {fine : α → Prop} {front : Task Activity α}
    {next : α → Task Activity (List Bridge)} (probes : Always IsProbe fine front)
    (validated : ∀ output, fine output → Always (AsksOnly produces validation.configPath)
      (FindsOnly produces validation.web validation.configPath) (next output)) :
    Always (AsksOnly produces validation.configPath)
      (FindsOnly produces validation.web validation.configPath) (front.bind next) :=
  (probes.mono (fun _ probe => asksOnly_of_isOffline probe.offline) fun _ => id).bind validated

/-! ## DNS-SD -/

theorem addresses_candidatesAt (addresses : List Net.Ipv4) :
    Validation.addresses (candidatesAt addresses) = addresses := by
  simp [Validation.addresses, candidatesAt, List.filterMap_map, Bridge.candidate,
    Net.Ipv4.parse?_text]

theorem mem_distinctAddresses {hosts : Mdns.Hosts} {address : Net.Ipv4} :
    address ∈ distinctAddresses hosts ↔ ∃ host, (host, address) ∈ hosts := by
  simp [distinctAddresses]

theorem always_browse {settings : Settings.Browse}
    (produced : ∀ start host address, network.responderState = .ok start →
      network.responder.Sees start host address → produces address) :
    Always (AsksOnly produces validation.configPath)
      (FindsOnly produces validation.web validation.configPath)
      (browse network settings validation) := by
  unfold browse
  split
  · exact always_none
  · rename_i start started
    apply always_bind_validated Mdns.always_collect
    intro collected seen
    cases collected with
    | error => exact always_none
    | ok hosts =>
        apply always_validated
        intro address given
        rw [addresses_candidatesAt, mem_distinctAddresses] at given
        rcases given with ⟨host, member⟩
        exact produced start host address started (seen hosts rfl host address member)

/-! ## The subnet -/

theorem always_run? {limit : Nat} {accepts : Net.Ipv4 → Bool} {hosts : List Net.Ipv4}
    {scan : Task Activity (List Net.Ipv4)} (begun : Scan.run? limit accepts hosts = some scan) :
    Always IsProbe (fun found => ∀ host ∈ found, host ∈ hosts ∧ accepts host = true) scan := by
  apply (Scan.always_reached begun).mono
  · rintro _ ⟨host, -, rfl⟩
    exact ⟨rfl, rfl⟩
  · exact fun _ => id

theorem always_scan {settings : Settings.Scan}
    (produced : ∀ interface address, network.interface = .ok interface →
      address ∈ Net.subnetHosts interface → network.accepts address = true → produces address) :
    Always (AsksOnly produces validation.configPath)
      (FindsOnly produces validation.web validation.configPath)
      (scan network settings validation) := by
  unfold scan
  split
  · exact always_none
  · rename_i interface present
    split
    · exact .stall always_none
    · rename_i begun
      apply always_bind_validated (always_run? begun)
      intro reached accepted
      apply always_validated
      intro address given
      rw [addresses_candidatesAt] at given
      rcases accepted address given with ⟨host, accepts⟩
      exact produced interface address present host accepts

/-! ## Multicast -/

/-- The candidates that listening comes to are those of the datagrams heard by then. -/
theorem always_listen {request : String} {time sends : Nat} {datagrams : List (List UInt8)}
    {stream : Ssdp.Stream} :
    Always IsProbe
      (fun candidates => ∃ heard, heard <+: datagrams ∧
        candidates = ((heard.map datagramText).foldl Ssdp.Stream.feed stream).finish)
      (listen request time sends datagrams stream) := by
  induction size : sends + datagrams.length using Nat.strongRecOn
    generalizing sends datagrams stream with
  | ind _ ih =>
  subst size
  have now : ∃ heard, heard <+: datagrams ∧
      stream.finish = ((heard.map datagramText).foldl Ssdp.Stream.feed stream).finish :=
    ⟨[], List.nil_prefix, rfl⟩
  unfold listen
  refine .orLeave (.done now) ?_
  have later {datagram : List UInt8} {rest : List (List UInt8)} {sends' : Nat}
      (less : sends' + rest.length < sends + datagrams.length)
      (split : datagrams = datagram :: rest) :
      Always IsProbe
        (fun candidates => ∃ heard, heard <+: datagrams ∧
          candidates = ((heard.map datagramText).foldl Ssdp.Stream.feed stream).finish)
        (listen request time sends' rest (stream.feed (datagramText datagram))) := by
    apply (ih _ less rfl).mono (fun _ => id)
    rintro _ ⟨heard, part, rfl⟩
    exact ⟨datagram :: heard, split ▸ List.cons_prefix_cons.mpr ⟨rfl, part⟩, rfl⟩
  cases sends with
  | zero =>
      cases datagrams with
      | nil => exact .emit ⟨rfl, rfl⟩ (.gate (.done now) (.done now))
      | cons datagram rest =>
          apply Always.pick
          intro turn
          match turn with
          | 0 => exact later (by simp) rfl
          | 1 => exact .done now
  | succ sends =>
      apply Always.pick
      intro turn
      match turn, datagrams with
      | 0, datagrams => exact .emit ⟨rfl, rfl⟩ (ih _ (by simp) rfl)
      | 1, datagram :: rest => exact later (by simp) rfl
      | 1, [] => exact .done now
      | 2, _ => exact .done now

theorem always_multicast {settings : Settings.Multicast}
    (produced : ∀ interface heard address, network.interface = .ok interface →
      network.binds = true → heard <+: network.datagrams →
      address ∈ Validation.addresses (Ssdp.candidatesOf (heard.map datagramText)) →
      produces address) :
    Always (AsksOnly produces validation.configPath)
      (FindsOnly produces validation.web validation.configPath)
      (multicast network settings validation) := by
  unfold multicast
  split
  · exact always_none
  · rename_i interface present
    split
    · apply always_bind_validated always_listen
      intro candidates heard
      rcases heard with ⟨heard, part, rfl⟩
      exact always_validated fun address => produced interface heard address present ‹_› part
    · exact always_none

/-! ## The cloud -/

theorem always_heed {answer : Http.Answer}
    (produced : ∀ address ∈ Validation.addresses (listed answer), produces address) :
    Always (AsksOnly produces validation.configPath)
      (FindsOnly produces validation.web validation.configPath) (heed validation answer) := by
  cases answer with
  | silence => exact .stall always_none
  | response | failure => exact always_validated produced

/-- The list of the cloud is requested first, and then the bridges on it are validated. -/
theorem cloud_of_course {configured : String} {token : Bool} {marks : List (Task.Mark Activity)}
    {last : Task.Run Activity (List Bridge)}
    (produced : ∀ address ∈ Validation.addresses
      (listed (validation.web (Cloud.requestUrl configured))), produces address)
    (course : Task.Course ⟨token, cloud configured validation⟩ marks last) :
    (∃ lead rest, (Task.signals marks).filterMap Activity.url? = lead ++ rest ∧
        (lead = [] ∨ lead = [Cloud.requestUrl configured]) ∧
        ∀ page ∈ rest, ∃ address, produces address ∧
          page = Validation.url validation.configPath address) ∧
      ∀ output, last.task = .done output →
        FindsOnly produces validation.web validation.configPath output := by
  rcases course.orLeave_cases with
    ⟨silent, going⟩ | ⟨before, after, more, silent, rfl, left | asked⟩
  · constructor
    · exact ⟨[], [], by simp [silent], .inl rfl, nofun⟩
    · intro output ended
      simp [ended] at going
  · rcases left.done_cases with ⟨after, firing, rfl⟩
    constructor
    · exact ⟨[], [], by simp [silent, firing.signals_eq], .inl rfl, nofun⟩
    · rintro _ ⟨⟩
      exact nofun
  · rcases asked.emit_cases with
      ⟨after, firing, rfl⟩ | ⟨before', after, more, firing, rfl, requested⟩
    · exact ⟨⟨[], [], by simp [silent, firing.signals_eq], .inl rfl, nofun⟩, nofun⟩
    · rcases always_heed produced after more last requested with ⟨asks, finds⟩
      have split : (Task.signals (before ++ (before' ++
            .signal (.request (Cloud.requestUrl configured)) :: more))).filterMap Activity.url? =
          [Cloud.requestUrl configured] ++ (Task.signals more).filterMap Activity.url? := by
        simp [silent, firing.signals_eq, Activity.url?]
      constructor
      · refine ⟨_, _, split, .inr rfl, ?_⟩
        intro page member
        rcases List.mem_filterMap.mp member with ⟨activity, signalled, requested⟩
        exact asks activity signalled page requested
      · exact finds

end

/-! ## The four methods -/

/-- The pages that a method requests: the list of the cloud, if it is the method's own
source, at most once and first, and configuration documents at addresses that the source
produces. -/
def RequestsOnly (network : Network π) (settings : Settings) (kind : Kind) (pages : List String) :
    Prop :=
  ∃ lead rest, pages = lead ++ rest ∧
    (lead = [] ∨ kind = .nupnp ∧ lead = [Cloud.requestUrl settings.cloud.url]) ∧
    ∀ page ∈ rest, ∃ address, Produces network settings kind address ∧
      page = Validation.url settings.configPath address

/-- What a method requests and finds, by whatever schedule. -/
theorem ofKind_of_course {session : Session} {kind : Kind} {token : Bool}
    {marks : List (Task.Mark Activity)} {last : Task.Run Activity (List Bridge)}
    (course : Task.Course ⟨token, ofKind network settings session kind⟩ marks last) :
    RequestsOnly network settings kind ((Task.signals marks).filterMap Activity.url?) ∧
      ∀ output, last.task = .done output →
        FindsOnly (Produces network settings kind) network.web settings.configPath output := by
  have offline (always : Always (AsksOnly (Produces network settings kind) settings.configPath)
      (FindsOnly (Produces network settings kind) network.web settings.configPath)
      (ofKind network settings session kind)) :
      RequestsOnly network settings kind ((Task.signals marks).filterMap Activity.url?) ∧
        ∀ output, last.task = .done output →
          FindsOnly (Produces network settings kind) network.web settings.configPath output := by
    rcases always token marks last course with ⟨asks, finds⟩
    constructor
    · refine ⟨[], _, rfl, .inl rfl, ?_⟩
      intro page member
      rcases List.mem_filterMap.mp member with ⟨activity, signalled, requested⟩
      exact asks activity signalled page requested
    · exact finds
  cases kind with
  | mdns =>
      exact offline (always_browse fun start host address started seen =>
        ⟨start, host, started, seen⟩)
  | ipscan =>
      exact offline (always_scan fun interface address present host accepts =>
        ⟨interface, present, host, accepts⟩)
  | upnp =>
      exact offline (always_multicast fun interface heard address present binds part member =>
        ⟨interface, heard, present, binds, part, member⟩)
  | nupnp =>
      have produced : ∀ address ∈ Validation.addresses
          (listed (network.web (Cloud.requestUrl settings.cloud.url))),
          Produces network settings .nupnp address := fun _ => id
      rcases cloud_of_course produced course with ⟨⟨lead, rest, split, first, asks⟩, finds⟩
      exact ⟨⟨lead, rest, split, first.imp_right fun same => ⟨rfl, same⟩, asks⟩, finds⟩

end BridgeFinder.Search
