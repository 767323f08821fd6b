import BridgeFinder.Proofs.Mdns.Relay.Locates
import BridgeFinder.Proofs.Mdns.Tables
import BridgeFinder.Proofs.Search.Source

/-!
# Searching by DNS-SD

A search by DNS-SD asks for the configuration document at the first address of every host that it
has come by, once for every address.  At a responder that serves tables these are the hosts that the
tables lead to from the configured types, and those of the sightings that were not asked for.
-/

namespace BridgeFinder

open BridgeFinder.Task (Course)
open BridgeFinder.Mdns

variable {π : Type}

theorem Net.Ipv4.text_injective : Function.Injective Net.Ipv4.text := by
  intro first second same
  have read := first.parse?_text
  rw [same, second.parse?_text] at read
  exact (Option.some.inj read).symm

theorem Validation.url_injective (configPath : String) :
    Function.Injective (Validation.url configPath) := by
  intro first second same
  have fronts := (String.append_left_inj configPath).mp same
  exact Net.Ipv4.text_injective ((String.append_right_inj "http://").mp fronts)

/-- The hosts are those at which a location is known, with the first one. -/
theorem Mdns.Hosts.AreFirst.mem_iff {hosts : Hosts} {known : List (String × Net.Ipv4)}
    (first : hosts.AreFirst known) {host : String} {address : Net.Ipv4} :
    (host, address) ∈ hosts ↔ known.lookup host = some address := by
  rw [← first.lookup, List.lookup_eq_some_iff]
  constructor
  · intro member
    rcases List.append_of_mem member with ⟨before, after, rfl⟩
    refine ⟨before, after, rfl, ?_⟩
    intro entry earlier
    have apart := first.nodup
    rw [List.map_append, List.nodup_append] at apart
    have other := apart.2.2 _ (List.mem_map_of_mem earlier) host List.mem_cons_self
    exact bne_iff_ne.mpr other.symm
  · rintro ⟨before, after, rfl, -⟩
    exact List.mem_append_right _ List.mem_cons_self

namespace Search

/-- The pages that have been requested. -/
def pages (marks : List (Task.Mark Activity)) : List String :=
  (Task.signals marks).filterMap Activity.url?

theorem nodup_distinctAddresses (hosts : Hosts) : (distinctAddresses hosts).Nodup :=
  List.nodup_mergeSort.mpr (Relay.nodup_eraseDups _)

/-- The rounds of a collection that is not cancelled, with what is left of its window and the state
of the responder after them. -/
def rounds (network : Network π) (settings : Settings.Browse) (start : π) :
    List Round × Nat × π :=
  network.responder.rounds settings.pollTimeout.toNat network.polls
    (settings.window.toNat, network.responder.after (opening settings) start)

/-- What is sighted in these rounds without having been asked for, if that is what polls give
besides answers. -/
def unasked (network : Network π) (settings : Settings.Browse) (extra : π → List Sighting)
    (start : π) : List Sighting :=
  network.responder.besides extra settings.pollTimeout.toNat
    (rounds network settings start).1.length
    (settings.window.toNat, network.responder.after (opening settings) start)

/-- The configuration documents at the first addresses of hosts. -/
def IsFirstPage (configPath : String) (sighted : List Sighting) (page : String) : Prop :=
  ∃ host address, (locations sighted).lookup host = some address ∧
    page = Validation.url configPath address

section

variable {configPath page : String} {hosts : Hosts} {sighted : List Sighting}

theorem isFirstPage_iff (first : hosts.AreFirst (locations sighted)) :
    IsFirstPage configPath sighted page ↔
      page ∈ hosts.map fun entry => Validation.url configPath entry.2 := by
  simp [IsFirstPage, ← first.mem_iff, eq_comm]

theorem mem_map_distinctAddresses (first : hosts.AreFirst (locations sighted)) :
    page ∈ (distinctAddresses hosts).map (Validation.url configPath) ↔
      IsFirstPage configPath sighted page := by
  simp only [isFirstPage_iff first, List.mem_map, mem_distinctAddresses]
  constructor
  · rintro ⟨address, ⟨host, known⟩, rfl⟩
    exact ⟨(host, address), known, rfl⟩
  · rintro ⟨⟨host, address⟩, known, rfl⟩
    exact ⟨address, ⟨host, known⟩, rfl⟩

end

section

variable {network : Network π} {settings : Settings.Browse} {validation : Validation} {start : π}
  {marks : List (Task.Mark Activity)}

/-- Collecting requests no page. -/
theorem pages_collect {last : Task.Run Activity (Except Failure Hosts)} {token : Bool}
    (course : Course ⟨token, collect network.responder settings network.polls start⟩ marks last) :
    pages marks = [] := by
  rw [pages, List.filterMap_eq_nil_iff]
  intro activity member
  exact ((always_collect token marks last course).1 activity member).offline

/-- A search that is not cancelled has not begun to validate, and does not stay there; or it
validates what all rounds have come to, and asks everywhere before it rests. -/
theorem browse_of_course {last : Task.Run Activity (List Bridge)}
    (started : network.responderState = .ok start)
    (accepted : .ok () ∈ network.responder.replies (opening settings) start)
    (course : Course ⟨false, browse network settings validation⟩ marks last)
    (uncancelled : last.token = false) :
    (pages marks = [] ∧ ¬ last.IsStill) ∨
      ∃ hosts : Hosts, hosts.AreFirst (locations (sightings (rounds network settings start).1)) ∧
        (pages marks).Subperm
          ((distinctAddresses hosts).map (Validation.url validation.configPath)) ∧
        (last.Rests → (pages marks).Perm
          ((distinctAddresses hosts).map (Validation.url validation.configPath))) := by
  simp only [browse, started] at course
  cases course.bind_cases with
  | inside first going =>
      left
      constructor
      · exact pages_collect first
      · intro still
        rcases neverHangs_collect.exists_output first (still.of_bind going) with ⟨output, ended⟩
        cases going.symm.trans (congrArg Task.output? ended)
  | @through before more after output _ first second =>
      right
      obtain rfl : after = false := by
        cases after with
        | false => rfl
        | true => exact (second.token_of_token rfl).symm.trans uncancelled
      rcases (account_of_course first).concludes accepted _ rfl with
        ⟨hosts, ran, left, found, rfl, concludes⟩
      have all : rounds network settings start = (ran, left) :=
        concludes.ran.eq_rounds concludes.few (concludes.isOver.resolve_left (by simp))
      have asked : pages (before ++ more) = (Task.signals more).filterMap Activity.url? := by
        rw [pages, Task.signals_append, List.filterMap_append, ← pages, pages_collect first,
          List.nil_append]
      refine ⟨hosts, ?_, ?_, ?_⟩
      · rw [all]
        exact concludes.first
      · rw [asked]
        have requested := Validation.requested_of_course second
        rwa [addresses_candidatesAt] at requested
      · intro rests
        rw [asked]
        have requested := Validation.asked_of_course second rests uncancelled
        rwa [addresses_candidatesAt] at requested

end

/-- The account of a search by DNS-SD at a responder that serves tables.  One of the types can be
browsed, and in the end of the window no answer is owed.  The sightings are then those that the
tables announce.  Without a cancellation the search requests, each once, the documents at the first
addresses of the hosts among them, and no other page; and by itself it comes to where it has
requested them. -/
theorem browse_account {table : Table} {owes extra : π → List Sighting} (network : Network π)
    (settings : Settings) (session : Session) (start : π)
    (started : network.responderState = .ok start)
    (serves : Serves network.responder table owes extra) (fresh : owes start = [])
    (accepted : ∃ serviceType ∈ settings.browse.serviceTypes, ∃ services,
      table.services serviceType = .ok services)
    (answered : owes (rounds network settings.browse start).2.2 = []) :
    let sighted := sightings (rounds network settings.browse start).1
    (∀ sighting, sighting ∈ sighted ↔
        table.Announces settings.browse.serviceTypes
          (unasked network settings.browse extra start) sighting) ∧
      ∀ turns, .fire ∉ turns →
        let search := ofKind network settings session .mdns
        let run := search.runBy turns false
        (pages run.1).Nodup ∧
          (∀ page ∈ pages run.1, IsFirstPage settings.configPath sighted page) ∧
          (run.2.IsStill → ∀ page, page ∈ pages run.1 ↔
            IsFirstPage settings.configPath sighted page) ∧
          ∃ more, .fire ∉ more ∧ (search.runBy (turns ++ more) false).2.IsStill := by
  intro sighted
  constructor
  · have follows := (Follows.opening serves fresh settings.browse.serviceTypes).rounds serves
      (network.responder.rounds_ran settings.browse.pollTimeout.toNat network.polls
        (settings.browse.window.toNat, network.responder.after (opening settings.browse) start))
    rw [List.nil_append, List.nil_append] at follows
    intro sighting
    exact (answered ▸ follows).seen_iff sighting
  · intro turns unfired search run
    have replied : .ok () ∈ network.responder.replies (opening settings.browse) start := by
      rcases accepted with ⟨serviceType, browsed, services, listed⟩
      rw [serves.replies_eq, List.mem_map]
      refine ⟨.browse serviceType, List.mem_map_of_mem browsed, ?_⟩
      simp [Table.reply, Table.answers, listed, Except.map]
    have uncancelled : run.2.token = false := Task.Run.token_play unfired _
    have distinct (hosts : Hosts) :
        ((distinctAddresses hosts).map (Validation.url settings.configPath)).Nodup :=
      (nodup_distinctAddresses hosts).map (Validation.url_injective _)
    have still := Task.exists_isStill turns false search
    rcases browse_of_course started replied (Task.course_runBy turns false search) uncancelled with
      ⟨none, moves⟩ | ⟨hosts, first, part, all⟩
    · refine ⟨?_, ?_, fun still => absurd still moves, still⟩
      · rw [none]
        exact List.nodup_nil
      · rw [none]
        exact fun page member => absurd member List.not_mem_nil
    · refine ⟨?_, ?_, ?_, still⟩
      · rcases part with ⟨requested, same, part⟩
        exact same.nodup_iff.mp ((distinct hosts).sublist part)
      · exact fun page member => (mem_map_distinctAddresses first).mp (part.subset member)
      · exact fun still page => (all still.rests).mem_iff.trans (mem_map_distinctAddresses first)

/-- Two services of one type run on a host with two addresses.  Another service is only seen without
a question. -/
def twoHosts : Table where
  services serviceType :=
    if serviceType = "_hue._tcp.local." then .ok ["1", "2"] else .error (.mdns "unknown")
  hosts service := if service = "3" then .ok ["other"] else .ok ["bridge"]
  addresses host :=
    if host = "bridge" then .ok [.ofOctets 192 168 7 40, .ofOctets 10 0 0 9]
    else .ok [.ofOctets 192 168 7 41]

/-- A network on which they are seen. -/
def twoHostsNetwork : Network Table.State where
  web := Http.offline
  interfaces := .ok []
  accepts _ := false
  binds := false
  datagrams := []
  sends := 0
  responder := twoHosts.responder
  responderState := .ok { batches := [[.found "_hap._tcp.local." "3"]] }
  polls := 20

theorem browse_account_twoHosts :
    let search := ofKind twoHostsNetwork {} default .mdns
    ∃ turns, let run := search.runBy turns false
      run.2.IsStill ∧ (pages run.1).Nodup ∧ ∀ page, page ∈ pages run.1 ↔
        page ∈ ["http://192.168.7.40/api/config", "http://192.168.7.41/api/config"] := by
  have browsed : twoHosts.services "_hue._tcp.local." = .ok ["1", "2"] := rfl
  have account := browse_account twoHostsNetwork {} default _ rfl twoHosts.serves rfl
    ⟨"_hue._tcp.local.", by decide, _, browsed⟩ (by decide +kernel)
  rcases account with ⟨-, account⟩
  rcases (account [] List.not_mem_nil).2.2.2 with ⟨turns, unfired, still⟩
  rcases account turns unfired with ⟨distinct, -, all, -⟩
  refine ⟨turns, still, distinct, ?_⟩
  intro page
  rw [all still page, isFirstPage_iff (Hosts.AreFirst.nil.noting _)]
  have hosts : Hosts.noting [] (sightings
      (rounds twoHostsNetwork {} { batches := [[.found "_hap._tcp.local." "3"]] }).1) =
        [("bridge", .ofOctets 192 168 7 40), ("other", .ofOctets 192 168 7 41)] := by
    decide +kernel
  rw [hosts]
  rfl

end Search

end BridgeFinder
