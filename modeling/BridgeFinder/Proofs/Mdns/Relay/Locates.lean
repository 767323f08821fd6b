import BridgeFinder.Mdns.Relay
import Mathlib.Data.List.Nodup

/-!
# The addresses that a relay gives

A relay keeps the addresses that notices tell, and gives an address of a host when the host has
been asked for and a notice has told it, whichever of the two comes first, and only then: each
address of a host is given once.
-/

namespace BridgeFinder.Mdns

theorem HostAddress.ipv4?_eq_some {hostAddress : HostAddress} {address : Net.Ipv4} :
    hostAddress.ipv4? = some address ↔ hostAddress = .ipv4 address := by
  cases hostAddress <;> simp [ipv4?]

namespace Relay

/-- A notice says that a service runs on a host. -/
def Names (notices : List (String × Notice)) (service host : String) : Prop :=
  ∃ serviceType addresses, (serviceType, .resolved service host addresses) ∈ notices

/-- A notice says that a host has an address. -/
def Tells (notices : List (String × Notice)) (host : String) (address : Net.Ipv4) : Prop :=
  ∃ serviceType service addresses,
    (serviceType, .resolved service host addresses) ∈ notices ∧ .ipv4 address ∈ addresses

variable {questions : List Inquiry} {received notices : List (String × Notice)}
  {given : List Sighting} {relay : Relay} {service host : String} {address : Net.Ipv4}

theorem names_concat {serviceType : String} {notice : Notice} :
    Names (received ++ [(serviceType, notice)]) service host ↔
      Names received service host ∨ ∃ addresses, notice = .resolved service host addresses := by
  simp only [Names, List.mem_append, List.mem_singleton, Prod.mk.injEq]
  constructor
  · rintro ⟨type, addresses, before | ⟨-, rfl⟩⟩
    · exact .inl ⟨type, addresses, before⟩
    · exact .inr ⟨addresses, rfl⟩
  · rintro (⟨type, addresses, before⟩ | ⟨addresses, rfl⟩)
    · exact ⟨type, addresses, .inl before⟩
    · exact ⟨serviceType, addresses, .inr ⟨rfl, rfl⟩⟩

theorem tells_concat {serviceType : String} {notice : Notice} :
    Tells (received ++ [(serviceType, notice)]) host address ↔
      Tells received host address ∨
        ∃ service addresses, notice = .resolved service host addresses ∧
          .ipv4 address ∈ addresses := by
  simp only [Tells, List.mem_append, List.mem_singleton, Prod.mk.injEq]
  constructor
  · rintro ⟨type, service, addresses, before | ⟨-, rfl⟩, member⟩
    · exact .inl ⟨type, service, addresses, before, member⟩
    · exact .inr ⟨service, addresses, rfl, member⟩
  · rintro (⟨type, service, addresses, before, member⟩ | ⟨service, addresses, rfl, member⟩)
    · exact ⟨type, service, addresses, .inl before, member⟩
    · exact ⟨serviceType, service, addresses, .inr ⟨rfl, rfl⟩, member⟩

theorem Names.mono (names : Names received service host) (among : received ⊆ notices) :
    Names notices service host := by
  rcases names with ⟨serviceType, addresses, member⟩
  exact ⟨serviceType, addresses, among member⟩

theorem Tells.mono (tells : Tells received host address) (among : received ⊆ notices) :
    Tells notices host address := by
  rcases tells with ⟨serviceType, service, addresses, member, there⟩
  exact ⟨serviceType, service, addresses, among member, there⟩

/-! ## Entries under names -/

/-- An entry that is put in place of the one before is found under its name, and the others are
found as before. -/
theorem lookup_put {β : Type} (name : String) (value : β) (entries : List (String × β))
    (other : String) :
    ((name, value) :: entries.filter (·.1 ≠ name)).lookup other =
      if other = name then some value else entries.lookup other := by
  by_cases same : other = name
  · simp [same]
  · have apart : (other == name) = false := by simpa using same
    simp only [List.lookup_cons, apart, if_neg same]
    induction entries with
    | nil => rfl
    | cons entry rest ih =>
        rcases entry with ⟨key, old⟩
        by_cases replaced : key = name
        · have passed : (other == key) = false := by rwa [replaced]
          simp only [List.filter_cons, replaced, ne_eq, not_true_eq_false, decide_false,
            Bool.false_eq_true, if_false, List.lookup_cons, apart]
          exact ih
        · simp only [List.filter_cons, replaced, ne_eq, not_false_eq_true, decide_true, if_true,
            List.lookup_cons]
          split
          · rfl
          · exact ih

theorem nodup_eraseDups {α : Type} [DecidableEq α] (members : List α) :
    members.eraseDups.Nodup := by
  match members with
  | [] => simp
  | first :: rest =>
      rw [List.eraseDups_cons, List.nodup_cons]
      constructor
      · simp
      · exact nodup_eraseDups _
termination_by members.length
decreasing_by exact Nat.lt_succ_of_le (List.length_filter_le _ _)

/-- The addresses of a notice that are not known yet. -/
def fresh (relay : Relay) (host : String) (addresses : List HostAddress) : List Net.Ipv4 :=
  (addresses.filterMap HostAddress.ipv4?).eraseDups.filter (· ∉ relay.known host)

theorem mem_fresh {addresses : List HostAddress} :
    address ∈ relay.fresh host addresses ↔
      .ipv4 address ∈ addresses ∧ address ∉ relay.known host := by
  simp [fresh, HostAddress.ipv4?_eq_some]

theorem nodup_fresh (relay : Relay) (host : String) (addresses : List HostAddress) :
    (relay.fresh host addresses).Nodup :=
  (nodup_eraseDups _).filter _

/-- The answers that a notice gives. -/
def replies (relay : Relay) (serviceType : String) : Notice → List Sighting
  | .found service => [.found serviceType service]
  | .resolved service host addresses =>
      (if relay.wantedServices.contains service then [.resolved service host] else []) ++
        if relay.wantedHosts.contains host then
          (relay.fresh host addresses).map (.located host)
        else []
  | .other => []

theorem pending_handle (relay : Relay) (serviceType : String) (notice : Notice) :
    (relay.handle serviceType notice).pending =
      relay.pending ++ relay.replies serviceType notice := by
  cases notice with
  | found | resolved => rfl
  | other => exact (List.append_nil _).symm

/-! ## The addresses of hosts -/

/-- What a relay knows about addresses comes from the notices, and it has given those that were
asked for, each of them once. -/
structure Locates (questions : List Inquiry) (received : List (String × Notice))
    (given : List Sighting) (relay : Relay) : Prop where
  known : ∀ host address, address ∈ relay.known host ↔ Tells received host address
  nodup : ∀ host, (relay.known host).Nodup
  wanted : ∀ host, host ∈ relay.wantedHosts ↔ .query host ∈ questions
  located : ∀ host address, .located host address ∈ given ↔
    .query host ∈ questions ∧ address ∈ relay.known host
  once : ∀ host address, given.count (.located host address) ≤ 1

/-- Addresses of a host that are given, each once. -/
theorem count_located {addresses : List Net.Ipv4} (nodup : addresses.Nodup)
    (host other : String) (address : Net.Ipv4) :
    (addresses.map (Sighting.located host)).count (.located other address) =
      if other = host ∧ address ∈ addresses then 1 else 0 := by
  have injective : Function.Injective (Sighting.located host) := by
    intro first second same
    cases same
    rfl
  rw [(nodup.map injective).count]
  congr 1
  simp only [List.mem_map, Sighting.located.injEq, eq_iff_iff]
  constructor
  · rintro ⟨_, member, rfl, rfl⟩
    exact ⟨rfl, member⟩
  · rintro ⟨rfl, member⟩
    exact ⟨address, member, rfl, rfl⟩

/-- A notice about a host is answered by its new addresses, if they were asked for. -/
theorem count_replies (relay : Relay) (serviceType service host : String)
    (addresses : List HostAddress) (other : String) (address : Net.Ipv4) :
    (relay.replies serviceType (.resolved service host addresses)).count (.located other address) =
      if host ∈ relay.wantedHosts ∧ other = host ∧ address ∈ relay.fresh host addresses
      then 1 else 0 := by
  have first : (if relay.wantedServices.contains service then [.resolved service host] else
      ([] : List Sighting)).count (.located other address) = 0 := by
    split <;> simp
  rw [replies, List.count_append, first, Nat.zero_add]
  by_cases wanted : host ∈ relay.wantedHosts
  · simp only [List.contains_iff_mem.mpr wanted, if_true, wanted, true_and]
    exact count_located (nodup_fresh relay host addresses) host other address
  · simp [wanted]

theorem located_mem_replies {serviceType : String} {addresses : List HostAddress} {other : String} :
    .located other address ∈ relay.replies serviceType (.resolved service host addresses) ↔
      host ∈ relay.wantedHosts ∧ other = host ∧ address ∈ relay.fresh host addresses := by
  rw [← List.count_pos_iff, count_replies]
  split <;> simp [*]

theorem Locates.fresh : Locates [] [] [] {} where
  known := by simp [Relay.known, Tells]
  nodup := by simp [Relay.known]
  wanted := by simp
  located := by simp
  once := by simp

/-- Other questions and answers do not matter. -/
theorem Locates.quiet (locates : Locates questions received given relay) {other : Relay}
    {more : List Inquiry} {answers : List Sighting}
    (addresses : other.addresses = relay.addresses)
    (wantedHosts : other.wantedHosts = relay.wantedHosts)
    (unasked : ∀ host, .query host ∉ more)
    (unanswered : ∀ host address, .located host address ∉ answers) :
    Locates (questions ++ more) received (given ++ answers) other := by
  have known (host : String) : other.known host = relay.known host := by
    rw [Relay.known, Relay.known, addresses]
  constructor
  · simpa only [known] using locates.known
  · simpa only [known] using locates.nodup
  · intro host
    rw [wantedHosts, List.mem_append, or_iff_left (unasked host)]
    exact locates.wanted host
  · intro host address
    rw [known, List.mem_append, or_iff_left (unanswered host address), List.mem_append,
      or_iff_left (unasked host)]
    exact locates.located host address
  · intro host address
    rw [List.count_append, List.count_eq_zero.mpr (unanswered host address), Nat.add_zero]
    exact locates.once host address

/-- The addresses of a host that are known are given when they are asked for the first time. -/
theorem Locates.query (locates : Locates questions received given relay) (host : String) :
    ∃ answers, (relay.query host).pending = relay.pending ++ answers ∧
      Locates (questions ++ [.query host]) received (given ++ answers) (relay.query host) ∧
      ∀ sighting ∈ answers, ∃ address, sighting = .located host address := by
  unfold Relay.query
  by_cases asked : relay.wantedHosts.contains host = true
  · rw [if_pos asked]
    have before : .query host ∈ questions :=
      (locates.wanted host).mp (by simpa using asked)
    refine ⟨[], (List.append_nil _).symm, ?_, nofun⟩
    have same (other : String) : .query other ∈ questions ++ [.query host] ↔
        .query other ∈ questions := by
      simp only [List.mem_append, List.mem_singleton, Inquiry.query.injEq, or_iff_left_iff_imp]
      rintro rfl
      exact before
    constructor
    · exact locates.known
    · exact locates.nodup
    · simpa only [same] using locates.wanted
    · simpa only [same, List.append_nil] using locates.located
    · simpa only [List.append_nil] using locates.once
  · rw [if_neg asked]
    have before : .query host ∉ questions := by
      rw [← locates.wanted host]
      simpa using asked
    refine ⟨(relay.known host).map (.located host), rfl, ?_, ?_⟩
    · constructor
      · exact locates.known
      · exact locates.nodup
      · intro other
        simp [answer, locates.wanted other]
      · intro other address
        have old := locates.located other address
        simp only [List.mem_append, List.mem_map, List.mem_singleton, Inquiry.query.injEq,
          Sighting.located.injEq, old]
        constructor
        · rintro (⟨asked, known⟩ | ⟨_, known, rfl, rfl⟩)
          · exact ⟨.inl asked, known⟩
          · exact ⟨.inr rfl, known⟩
        · rintro ⟨asked | rfl, known⟩
          · exact .inl ⟨asked, known⟩
          · exact .inr ⟨address, known, rfl, rfl⟩
      · intro other address
        rw [List.count_append, count_located (locates.nodup host)]
        split
        · rename_i new
          have none : given.count (.located other address) = 0 := by
            rw [List.count_eq_zero, locates.located, new.1]
            exact fun asked => before asked.1
          omega
        · exact locates.once other address
    · simp

/-- A notice about a host makes its new addresses known, and gives them if they were asked for. -/
theorem Locates.handle (locates : Locates questions received given relay) (serviceType : String)
    (notice : Notice) :
    Locates questions (received ++ [(serviceType, notice)])
      (given ++ relay.replies serviceType notice) (relay.handle serviceType notice) := by
  cases notice with
  | found service =>
      have quiet : Locates (questions ++ []) received (given ++ [.found serviceType service])
          (relay.handle serviceType (.found service)) :=
        locates.quiet rfl rfl (by simp) (by simp)
      rw [List.append_nil] at quiet
      refine ⟨?_, quiet.nodup, quiet.wanted, quiet.located, quiet.once⟩
      intro host address
      rw [tells_concat, quiet.known]
      simp
  | other =>
      simp only [replies, List.append_nil, Relay.handle]
      refine ⟨?_, locates.nodup, locates.wanted, locates.located, locates.once⟩
      intro host address
      rw [tells_concat, locates.known]
      simp
  | resolved service host addresses =>
      have known (other : String) :
          (relay.handle serviceType (.resolved service host addresses)).known other =
            if other = host then relay.known host ++ relay.fresh host addresses
            else relay.known other := by
        simp only [Relay.known, Relay.handle, answer, lookup_put]
        split <;> rfl
      constructor
      · intro other address
        rw [known, tells_concat, ← locates.known]
        split
        · rename_i same
          subst same
          by_cases old : address ∈ relay.known other <;> simp [mem_fresh, old]
        · rename_i apart
          simp [Ne.symm apart]
      · intro other
        rw [known]
        split
        · rw [List.nodup_append]
          refine ⟨locates.nodup host, nodup_fresh relay host addresses, ?_⟩
          rintro old there _ new rfl
          exact (mem_fresh.mp new).2 there
        · exact locates.nodup other
      · exact locates.wanted
      · intro other address
        rw [known, List.mem_append, locates.located, located_mem_replies, locates.wanted]
        split
        · rename_i same
          subst same
          rw [List.mem_append, ← and_or_left]
          simp
        · rename_i apart
          simp [apart]
      · intro other address
        rw [List.count_append, count_replies]
        split
        · rename_i new
          have none : given.count (.located other address) = 0 := by
            rw [List.count_eq_zero, locates.located, new.2.1]
            exact fun there => (mem_fresh.mp new.2.2).2 there.2
          omega
        · exact locates.once other address

end Relay

end BridgeFinder.Mdns
