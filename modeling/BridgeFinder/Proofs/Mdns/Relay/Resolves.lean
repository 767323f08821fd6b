import BridgeFinder.Proofs.Mdns.Relay.Locates

/-!
# The hosts that a relay gives

A relay gives the host of a service when it was asked for and a notice names it, whichever of the
two comes first.  Each question is answered once at most: a question that is put again before the
host is known is one with the question before.
-/

namespace BridgeFinder.Mdns

/-- The sighting says on which host a service runs. -/
def Sighting.resolves (service : String) : Sighting → Bool
  | resolved other _ => service == other
  | found .. | located .. => false

namespace Relay

variable {questions : List Inquiry} {received : List (String × Notice)}
  {given : List Sighting} {relay : Relay} {service host : String}

/-- What a relay knows about services comes from the notices, and what it has given was asked
for. -/
structure Resolves (questions : List Inquiry) (received : List (String × Notice))
    (given : List Sighting) (relay : Relay) : Prop where
  known : ∀ service host, relay.hosts.lookup service = some host → Names received service host
  unknown : ∀ service host, relay.hosts.lookup service = none → ¬ Names received service host
  /-- A service is wanted only as long as its host is not known. -/
  wanted : ∀ service ∈ relay.wantedServices, relay.hosts.lookup service = none
  resolved : ∀ service host, .resolved service host ∈ given →
    .resolve service ∈ questions ∧ Names received service host
  /-- A question that was put is wanted or has been answered. -/
  answered : ∀ service, .resolve service ∈ questions →
    service ∈ relay.wantedServices ∨ 0 < given.countP (Sighting.resolves service)
  /-- A service that is wanted is still to be answered, but not more often than asked. -/
  count : ∀ service, given.countP (Sighting.resolves service) +
    (if service ∈ relay.wantedServices then 1 else 0) ≤ questions.count (.resolve service)

theorem Resolves.fresh : Resolves [] [] [] {} where
  known := by simp
  unknown := by simp [Names]
  wanted := by simp
  resolved := by simp
  answered := by simp
  count := by simp

/-- Other questions and answers do not matter. -/
theorem Resolves.quiet (resolves : Resolves questions received given relay) {other : Relay}
    {more : List Inquiry} {answers : List Sighting} (hosts : other.hosts = relay.hosts)
    (wantedServices : other.wantedServices = relay.wantedServices)
    (unasked : ∀ service, .resolve service ∉ more)
    (unanswered : ∀ service, ∀ sighting ∈ answers, sighting.resolves service = false) :
    Resolves (questions ++ more) received (given ++ answers) other := by
  have none (service : String) : answers.countP (Sighting.resolves service) = 0 := by
    rw [List.countP_eq_zero]
    intro sighting member
    simp [unanswered service sighting member]
  constructor
  · rw [hosts]
    exact resolves.known
  · rw [hosts]
    exact resolves.unknown
  · rw [hosts, wantedServices]
    exact resolves.wanted
  · intro service host member
    rcases List.mem_append.mp member with old | new
    · rcases resolves.resolved service host old with ⟨asked, names⟩
      exact ⟨List.mem_append_left more asked, names⟩
    · have resolution := unanswered service _ new
      simp [Sighting.resolves] at resolution
  · intro service asked
    rw [wantedServices, List.countP_append, none, Nat.add_zero]
    rw [List.mem_append, or_iff_left (unasked service)] at asked
    exact resolves.answered service asked
  · intro service
    have count := resolves.count service
    rw [wantedServices, List.countP_append, none, Nat.add_zero, List.count_append]
    omega

/-- A notice that names no service changes nothing about services. -/
theorem Resolves.receive (resolves : Resolves questions received given relay)
    {serviceType : String} {notice : Notice}
    (nameless : ∀ service host addresses, notice ≠ .resolved service host addresses) :
    Resolves questions (received ++ [(serviceType, notice)]) given relay := by
  have same (service host : String) :
      Names (received ++ [(serviceType, notice)]) service host ↔ Names received service host := by
    rw [names_concat]
    simp [nameless]
  constructor
  · simpa only [same] using resolves.known
  · simpa only [same] using resolves.unknown
  · exact resolves.wanted
  · simpa only [same] using resolves.resolved
  · exact resolves.answered
  · exact resolves.count

/-- A question is answered if the host is known, and the service is wanted otherwise. -/
theorem Resolves.resolve (resolves : Resolves questions received given relay) (service : String) :
    ∃ answers, (relay.resolve service).pending = relay.pending ++ answers ∧
      Resolves (questions ++ [.resolve service]) received (given ++ answers)
        (relay.resolve service) ∧
      ∀ sighting ∈ answers, ∃ host, sighting = .resolved service host := by
  unfold Relay.resolve
  cases found : relay.hosts.lookup service with
  | some host =>
      have unwanted : service ∉ relay.wantedServices := by
        intro wanted
        rw [resolves.wanted service wanted] at found
        cases found
      refine ⟨[.resolved service host], rfl, ?_, by simp⟩
      constructor
      · exact resolves.known
      · exact resolves.unknown
      · exact resolves.wanted
      · intro other host' member
        rcases List.mem_append.mp member with old | new
        · rcases resolves.resolved other host' old with ⟨asked, names⟩
          exact ⟨List.mem_append_left _ asked, names⟩
        · cases List.mem_singleton.mp new
          exact ⟨by simp, resolves.known service host found⟩
      · intro other asked
        rw [List.countP_append]
        rcases List.mem_append.mp asked with old | new
        · exact (resolves.answered other old).imp_right fun some => Nat.lt_add_right _ some
        · cases List.mem_singleton.mp new
          right
          simp [Sighting.resolves]
      · intro other
        have count := resolves.count other
        have same : (relay.answer [.resolved service host]).wantedServices =
            relay.wantedServices := rfl
        have once : [Sighting.resolved service host].countP (Sighting.resolves other) =
            [Inquiry.resolve service].count (.resolve other) := by
          by_cases asked : other = service
          · simp [Sighting.resolves, asked]
          · simp [Sighting.resolves, asked, Ne.symm asked]
        rw [same, List.countP_append, List.count_append, once]
        omega
  | none =>
      have wanted (other : String) :
          other ∈ relay.wantedServices.filter (· ≠ service) ++ [service] ↔
            other ∈ relay.wantedServices ∨ other = service := by
        by_cases same : other = service <;> simp [same]
      refine ⟨[], (List.append_nil _).symm, ?_, nofun⟩
      rw [List.append_nil]
      constructor
      · exact resolves.known
      · exact resolves.unknown
      · intro other member
        rcases (wanted other).mp member with old | rfl
        · exact resolves.wanted other old
        · exact found
      · intro other host member
        rcases resolves.resolved other host member with ⟨asked, names⟩
        exact ⟨List.mem_append_left _ asked, names⟩
      · intro other asked
        rw [wanted]
        rcases List.mem_append.mp asked with old | new
        · exact (resolves.answered other old).imp_left .inl
        · cases List.mem_singleton.mp new
          exact .inl (.inr rfl)
      · intro other
        have count := resolves.count other
        by_cases same : other = service
        · rw [if_pos ((wanted other).mpr (.inr same)), List.count_append, same,
            List.count_singleton_self]
          rw [same] at count
          omega
        · have apart : .resolve other ∉ [Inquiry.resolve service] := by simpa using same
          simp only [wanted, same, or_false, List.count_append, List.count_eq_zero.mpr apart]
          exact count

/-- A service that is wanted was asked for. -/
theorem Resolves.asked (resolves : Resolves questions received given relay)
    (wanted : service ∈ relay.wantedServices) : .resolve service ∈ questions := by
  have count := resolves.count service
  rw [if_pos wanted] at count
  rw [← List.count_pos_iff]
  omega

/-- A notice that names the host of a service is answered once if the service is wanted. -/
theorem countP_replies (relay : Relay) (serviceType service host : String)
    (addresses : List HostAddress) (other : String) :
    (relay.replies serviceType (.resolved service host addresses)).countP
        (Sighting.resolves other) =
      if service ∈ relay.wantedServices ∧ other = service then 1 else 0 := by
  have second : (if relay.wantedHosts.contains host then
      (relay.fresh host addresses).map (Sighting.located host) else []).countP
        (Sighting.resolves other) = 0 := by
    split <;> simp [Sighting.resolves]
  rw [replies, List.countP_append, second, Nat.add_zero]
  by_cases wanted : service ∈ relay.wantedServices
  · simp [wanted, Sighting.resolves]
  · simp [wanted]

theorem resolved_mem_replies {serviceType : String} {addresses : List HostAddress}
    {other otherHost : String} :
    .resolved other otherHost ∈ relay.replies serviceType (.resolved service host addresses) ↔
      service ∈ relay.wantedServices ∧ other = service ∧ otherHost = host := by
  rw [replies, List.mem_append]
  constructor
  · rintro (first | second)
    · split at first
      · rename_i wanted
        cases List.mem_singleton.mp first
        exact ⟨List.contains_iff_mem.mp wanted, rfl, rfl⟩
      · cases first
    · split at second
      · simp at second
      · cases second
  · rintro ⟨wanted, rfl, rfl⟩
    left
    simp [wanted]

/-- A notice that names a service answers if the service is wanted. -/
theorem Resolves.handle (resolves : Resolves questions received given relay) (serviceType : String)
    (notice : Notice) :
    Resolves questions (received ++ [(serviceType, notice)])
      (given ++ relay.replies serviceType notice) (relay.handle serviceType notice) := by
  cases notice with
  | found service =>
      have quiet : Resolves (questions ++ []) received (given ++ [.found serviceType service])
          (relay.handle serviceType (.found service)) :=
        resolves.quiet rfl rfl (by simp) (by simp [Sighting.resolves])
      rw [List.append_nil] at quiet
      exact quiet.receive (by simp)
  | other =>
      simp only [replies, List.append_nil, Relay.handle]
      exact resolves.receive (by simp)
  | resolved service host addresses =>
      have lookup (other : String) :
          (relay.handle serviceType (.resolved service host addresses)).hosts.lookup other =
            if other = service then some host else relay.hosts.lookup other :=
        lookup_put service host relay.hosts other
      have wanted (other : String) :
          other ∈ (relay.handle serviceType (.resolved service host addresses)).wantedServices ↔
            other ∈ relay.wantedServices ∧ other ≠ service := by
        simp [Relay.handle, answer]
      constructor
      · intro other host' found
        rw [names_concat]
        rw [lookup] at found
        split at found
        · rename_i same
          cases found
          exact .inr ⟨addresses, by rw [same]⟩
        · exact .inl (resolves.known other host' found)
      · intro other host' found
        rw [names_concat]
        rw [lookup] at found
        split at found
        · cases found
        · rename_i apart
          rintro (before | ⟨_, same⟩)
          · exact resolves.unknown other host' found before
          · cases same
            exact apart rfl
      · intro other member
        rcases (wanted other).mp member with ⟨before, apart⟩
        rw [lookup, if_neg apart]
        exact resolves.wanted other before
      · intro other host' member
        rw [names_concat]
        rcases List.mem_append.mp member with old | new
        · exact (resolves.resolved other host' old).imp_right .inl
        · rcases resolved_mem_replies.mp new with ⟨before, rfl, rfl⟩
          exact ⟨resolves.asked before, .inr ⟨addresses, rfl⟩⟩
      · intro other asked
        rw [wanted, List.countP_append, countP_replies]
        rcases resolves.answered other asked with before | some
        · by_cases same : other = service
          · right
            rw [if_pos ⟨same ▸ before, same⟩]
            omega
          · exact .inl ⟨before, same⟩
        · right
          omega
      · intro other
        have count := resolves.count other
        rw [List.countP_append, countP_replies]
        simp only [wanted]
        by_cases same : other = service
        · subst same
          simpa using count
        · simpa [same] using count

end Relay

end BridgeFinder.Mdns
