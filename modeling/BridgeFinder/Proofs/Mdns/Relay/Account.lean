import BridgeFinder.Mdns.Relay
import BridgeFinder.Proofs.Mdns.Relay.Resolves
import BridgeFinder.Proofs.Schedule

/-!
# What a relay passes on

Whatever a relay has passed on, it was asked for before and a notice has said it; and what was
asked for and said is passed on when the relay is polled the next time.  The addresses of a host
are passed on once each, the host of a service no more often than it was asked for, and a service
as often as it was found.
-/

namespace BridgeFinder.Mdns

/-- The sighting says that there is a service. -/
def Sighting.isFound : Sighting → Bool
  | found .. => true
  | resolved .. | located .. => false

/-- What a notice says about which services there are. -/
def Notice.found? (serviceType : String) : Notice → Option Sighting
  | found service => some (.found serviceType service)
  | resolved .. | other => none

namespace Relay

variable {questions : List Inquiry} {received notices : List (String × Notice)}
  {given : List Sighting} {relay : Relay}

/-- What there is to receive. -/
def waiting (relay : Relay) : List (String × Notice) :=
  relay.channels.flatMap fun channel =>
    channel.notices.map fun notice => (channel.serviceType, notice)

/-- The questions that were put. -/
def asked (marks : List Mark) : List Inquiry :=
  marks.filterMap fun
    | .asked inquiry => some inquiry
    | .raised .. | .passed _ => none

/-- The notices that were raised, with the service types of their channels. -/
def raised (marks : List Mark) : List (String × Notice) :=
  marks.filterMap fun
    | .raised serviceType notice => some (serviceType, notice)
    | .asked _ | .passed _ => none

/-- The answers that were passed on. -/
def passed (marks : List Mark) : List Sighting :=
  marks.flatMap fun
    | .passed sightings => sightings
    | .asked _ | .raised .. => []

variable {marks more : List Mark}

theorem asked_append : asked (marks ++ more) = asked marks ++ asked more :=
  List.filterMap_append

theorem raised_append : raised (marks ++ more) = raised marks ++ raised more :=
  List.filterMap_append

theorem passed_append : passed (marks ++ more) = passed marks ++ passed more :=
  List.flatMap_append

/-- What a relay keeps and what it has given comes from what it was asked and what it has
received. -/
structure Joins (questions : List Inquiry) (received : List (String × Notice))
    (given : List Sighting) (relay : Relay) : Prop where
  locates : Locates questions received given relay
  resolves : Resolves questions received given relay
  /-- Every service that was found is given once. -/
  found : (given.filter Sighting.isFound).Perm
    (received.filterMap fun (serviceType, notice) => notice.found? serviceType)

theorem Joins.fresh : Joins [] [] [] {} :=
  ⟨.fresh, .fresh, .refl _⟩

/-- The channels, and what has not been passed on, do not matter. -/
theorem Joins.congr (joins : Joins questions received given relay) {other : Relay}
    (hosts : other.hosts = relay.hosts) (addresses : other.addresses = relay.addresses)
    (wantedServices : other.wantedServices = relay.wantedServices)
    (wantedHosts : other.wantedHosts = relay.wantedHosts) :
    Joins questions received given other := by
  have locates : Locates (questions ++ []) received (given ++ []) other :=
    joins.locates.quiet addresses wantedHosts (by simp) (by simp)
  have resolves : Resolves (questions ++ []) received (given ++ []) other :=
    joins.resolves.quiet hosts wantedServices (by simp) (by simp)
  rw [List.append_nil, List.append_nil] at locates resolves
  exact ⟨locates, resolves, joins.found⟩

/-- The order in which the notices are received does not matter. -/
theorem Joins.perm (joins : Joins questions received given relay)
    (same : received.Perm notices) : Joins questions notices given relay := by
  have names (service host : String) : Names received service host ↔ Names notices service host :=
    ⟨fun names => names.mono same.subset, fun names => names.mono same.symm.subset⟩
  have tells (host : String) (address : Net.Ipv4) :
      Tells received host address ↔ Tells notices host address :=
    ⟨fun tells => tells.mono same.subset, fun tells => tells.mono same.symm.subset⟩
  rcases joins with ⟨locates, resolves, found⟩
  refine ⟨⟨?_, locates.nodup, locates.wanted, locates.located, locates.once⟩,
    ⟨?_, ?_, resolves.wanted, ?_, resolves.answered, resolves.count⟩,
    found.trans (same.filterMap _)⟩
  · simpa only [tells] using locates.known
  · simpa only [names] using resolves.known
  · simpa only [names] using resolves.unknown
  · simpa only [names] using resolves.resolved

/-- One notice after the other is received. -/
theorem Joins.handle (joins : Joins questions received given relay) (serviceType : String)
    (notice : Notice) :
    Joins questions (received ++ [(serviceType, notice)])
      (given ++ relay.replies serviceType notice) (relay.handle serviceType notice) where
  locates := joins.locates.handle serviceType notice
  resolves := joins.resolves.handle serviceType notice
  found := by
    have replies : (relay.replies serviceType notice).filter Sighting.isFound =
        [(serviceType, notice)].filterMap fun (serviceType, notice) =>
          notice.found? serviceType := by
      cases notice with
      | found | other => rfl
      | resolved service host addresses =>
          have first : (if relay.wantedServices.contains service then
              [Sighting.resolved service host] else []).filter Sighting.isFound = [] := by
            split <;> rfl
          have second : (if relay.wantedHosts.contains host then
              (relay.fresh host addresses).map (Sighting.located host) else []).filter
                Sighting.isFound = [] := by
            split <;> simp [Sighting.isFound]
          rw [Relay.replies, List.filter_append, first, second]
          rfl
    rw [List.filter_append, replies, List.filterMap_append]
    exact joins.found.append_right _

/-- Receive notices one after the other. -/
def handleAll (notices : List (String × Notice)) (relay : Relay) : Relay :=
  notices.foldl (fun relay (serviceType, notice) => relay.handle serviceType notice) relay

theorem channels_handleAll (notices : List (String × Notice)) (relay : Relay) :
    (relay.handleAll notices).channels = relay.channels := by
  induction notices generalizing relay with
  | nil => rfl
  | cons first rest ih =>
      rcases first with ⟨serviceType, notice⟩
      have kept : (relay.handle serviceType notice).channels = relay.channels := by
        cases notice <;> rfl
      exact (ih (relay.handle serviceType notice)).trans kept

theorem Joins.handleAll (joins : Joins questions received given relay)
    (notices : List (String × Notice)) :
    ∃ replies, (relay.handleAll notices).pending = relay.pending ++ replies ∧
      Joins questions (received ++ notices) (given ++ replies) (relay.handleAll notices) := by
  induction notices generalizing received given relay with
  | nil => exact ⟨[], (List.append_nil _).symm, by rwa [List.append_nil, List.append_nil]⟩
  | cons first rest ih =>
      rcases first with ⟨serviceType, notice⟩
      rcases ih (joins.handle serviceType notice) with ⟨replies, pending, joins⟩
      rw [pending_handle, List.append_assoc] at pending
      refine ⟨relay.replies serviceType notice ++ replies, pending, ?_⟩
      rwa [List.append_assoc, List.append_assoc] at joins

/-- A question is answered by what is known. -/
theorem Joins.ask (joins : Joins questions received given relay) (inquiry : Inquiry) :
    ∃ answers, (responder.ask inquiry relay).2.pending = relay.pending ++ answers ∧
      (responder.ask inquiry relay).2.waiting = relay.waiting ∧
      Joins (questions ++ [inquiry]) received (given ++ answers)
        (responder.ask inquiry relay).2 := by
  cases inquiry with
  | browse serviceType =>
      have joins : Joins (questions ++ [.browse serviceType]) received (given ++ []) relay :=
        ⟨joins.locates.quiet rfl rfl (by simp) (by simp),
          joins.resolves.quiet rfl rfl (by simp) (by simp), by simpa using joins.found⟩
      refine ⟨[], ?_⟩
      simp only [responder, Relay.browse]
      split
      · exact ⟨(List.append_nil _).symm, by simp [waiting], joins.congr rfl rfl rfl rfl⟩
      · exact ⟨(List.append_nil _).symm, rfl, joins⟩
  | resolve service =>
      rcases joins.resolves.resolve service with ⟨answers, pending, resolves, only⟩
      refine ⟨answers, pending, ?_, ?_, resolves, ?_⟩
      · simp only [responder, Relay.resolve]
        split <;> rfl
      · have kept : (relay.resolve service).addresses = relay.addresses ∧
            (relay.resolve service).wantedHosts = relay.wantedHosts := by
          unfold Relay.resolve
          split <;> exact ⟨rfl, rfl⟩
        apply joins.locates.quiet kept.1 kept.2
        · simp
        · intro host address member
          rcases only _ member with ⟨_, same⟩
          cases same
      · have quiet : answers.filter Sighting.isFound = [] := by
          rw [List.filter_eq_nil_iff]
          intro sighting member
          rcases only sighting member with ⟨host, rfl⟩
          exact Bool.false_ne_true
        rw [List.filter_append, quiet, List.append_nil]
        exact joins.found
  | query host =>
      rcases joins.locates.query host with ⟨answers, pending, locates, only⟩
      refine ⟨answers, pending, ?_, locates, ?_, ?_⟩
      · simp only [responder, Relay.query]
        split <;> rfl
      · have kept : (relay.query host).hosts = relay.hosts ∧
            (relay.query host).wantedServices = relay.wantedServices := by
          unfold Relay.query
          split <;> exact ⟨rfl, rfl⟩
        apply joins.resolves.quiet kept.1 kept.2
        · simp
        · intro service sighting member
          rcases only sighting member with ⟨address, rfl⟩
          rfl
      · have quiet : answers.filter Sighting.isFound = [] := by
          rw [List.filter_eq_nil_iff]
          intro sighting member
          rcases only sighting member with ⟨address, rfl⟩
          exact Bool.false_ne_true
        rw [List.filter_append, quiet, List.append_nil]
        exact joins.found

/-- A relay agrees with what can be seen of it: it joins the questions that were put with the
notices that were raised and do not wait any more. -/
def Agrees (marks : List Mark) (relay : Relay) : Prop :=
  ∃ received, (received ++ relay.waiting).Perm (raised marks) ∧
    Joins (asked marks) received (passed marks ++ relay.pending) relay

variable {marks : List Mark}

theorem agrees_fresh : Agrees [] {} :=
  ⟨[], .refl _, .fresh⟩

/-- A question is put. -/
theorem Agrees.ask (agrees : Agrees marks relay) (inquiry : Inquiry) :
    Agrees (marks ++ [.asked inquiry]) (responder.ask inquiry relay).2 := by
  rcases agrees with ⟨received, all, joins⟩
  rcases joins.ask inquiry with ⟨answers, pending, waiting, joins⟩
  refine ⟨received, ?_, ?_⟩
  · rw [waiting]
    simpa [raised] using all
  · rw [pending, ← List.append_assoc]
    simpa [asked, passed] using joins

/-- A notice that is raised in a channel waits to be received. -/
theorem waiting_raise (channel : Nat) (notice : Notice) (relay : Relay) :
    (relay.raise channel notice).waiting.Perm (relay.waiting ++
      (relay.channels[channel]?.map fun channel => (channel.serviceType, notice)).toList) := by
  simp only [waiting, Relay.raise]
  induction relay.channels generalizing channel with
  | nil => simp
  | cons first rest ih =>
      cases channel with
      | zero =>
          have last (rest : List (String × Notice)) :
              ((first.serviceType, notice) :: rest).Perm
                (rest ++ [(first.serviceType, notice)]) :=
            (List.perm_append_singleton _ _).symm
          simpa [List.append_assoc] using (last _).append_left _
      | succ channel =>
          simpa [List.append_assoc] using (ih channel).append_left _

/-- The daemon raises a notice. -/
theorem Agrees.raise (agrees : Agrees marks relay) (channel : Nat) (notice : Notice) :
    Agrees (marks ++ (relay.turn (.raise channel notice)).1) (relay.raise channel notice) := by
  rcases agrees with ⟨received, all, joins⟩
  have new : asked (relay.turn (.raise channel notice)).1 = [] ∧
      passed (relay.turn (.raise channel notice)).1 = [] ∧
      raised (relay.turn (.raise channel notice)).1 =
        (relay.channels[channel]?.map fun channel => (channel.serviceType, notice)).toList := by
    cases found : relay.channels[channel]? <;> simp [Relay.turn, found, asked, passed, raised]
  rw [Agrees, asked_append, passed_append, raised_append, new.1, new.2.1, new.2.2,
    List.append_nil, List.append_nil]
  refine ⟨received, ?_, joins.congr rfl rfl rfl rfl⟩
  have waits := (waiting_raise channel notice relay).append_left received
  rw [← List.append_assoc] at waits
  exact waits.trans (all.append_right _)

/-- A relay whose channels are empty. -/
def drained (relay : Relay) : Relay :=
  { relay with channels := relay.channels.map fun channel => { channel with notices := [] } }

theorem receive_eq (relay : Relay) : relay.receive = relay.drained.handleAll relay.waiting :=
  rfl

/-- When a relay is polled, nothing waits any more, neither to be received nor to be passed on. -/
theorem Agrees.poll (agrees : Agrees marks relay) :
    relay.poll.2.pending = [] ∧ relay.poll.2.waiting = [] ∧
      Joins (asked marks) (raised marks) (passed marks ++ relay.poll.1) relay.poll.2 := by
  rcases agrees with ⟨received, all, joins⟩
  have drained : Joins (asked marks) received (passed marks ++ relay.pending) relay.drained :=
    joins.congr rfl rfl rfl rfl
  rcases drained.handleAll relay.waiting with ⟨replies, pending, joins⟩
  have channels := channels_handleAll relay.waiting relay.drained
  rw [← receive_eq] at pending joins channels
  refine ⟨rfl, ?_, ?_⟩
  · simp [waiting, Relay.poll, channels, Relay.drained, List.flatMap_map]
  · have passes : relay.poll.1 = relay.pending ++ replies := pending
    rw [passes, ← List.append_assoc]
    exact (joins.perm all).congr rfl rfl rfl rfl

/-- What happens to a relay keeps it in agreement. -/
theorem Agrees.turn (agrees : Agrees marks relay) (turn : Turn) :
    Agrees (marks ++ (relay.turn turn).1) (relay.turn turn).2 := by
  cases turn with
  | ask inquiry => exact agrees.ask inquiry
  | raise channel notice => exact agrees.raise channel notice
  | poll =>
      rcases agrees.poll with ⟨pending, waiting, joins⟩
      have new : asked (relay.turn .poll).1 = [] ∧ raised (relay.turn .poll).1 = [] ∧
          passed (relay.turn .poll).1 = relay.poll.1 := by
        simp [Relay.turn, responder, asked, raised, passed]
      have after : (relay.turn .poll).2 = relay.poll.2 := rfl
      rw [Agrees, asked_append, raised_append, passed_append, new.1, new.2.1, new.2.2, after]
      refine ⟨raised marks, ?_, ?_⟩
      · simp [waiting]
      · simpa [pending] using joins

/-- What a poll passes on after what was seen of the relay before. -/
structure Passes (before : List Mark) (sightings : List Sighting) : Prop where
  /-- An address of a host is passed on once at most. -/
  once : ∀ host address, (passed before ++ sightings).count (.located host address) ≤ 1
  /-- With this poll an address has been passed on exactly if its host was asked for and a notice
  told it. -/
  located : ∀ host address, .located host address ∈ passed before ++ sightings ↔
    .query host ∈ asked before ∧ Tells (raised before) host address
  /-- The host of a service was asked for, and a notice named it. -/
  resolved : ∀ service host, .resolved service host ∈ sightings →
    .resolve service ∈ asked before ∧ Names (raised before) service host
  /-- The host of a service is not passed on more often than it was asked for. -/
  bounded : ∀ service, (passed before ++ sightings).countP (Sighting.resolves service) ≤
    (asked before).count (.resolve service)
  /-- With this poll the host of a service has been passed on if it was asked for and a notice
  named it. -/
  answered : ∀ service host, .resolve service ∈ asked before →
    Names (raised before) service host →
      0 < (passed before ++ sightings).countP (Sighting.resolves service)
  /-- With this poll a service has been passed on as often as it was found. -/
  found : ((passed before ++ sightings).filter Sighting.isFound).Perm
    ((raised before).filterMap fun (serviceType, notice) => notice.found? serviceType)

/-- When all notices have been received, all answers are among what has been given. -/
theorem Joins.passes {sightings : List Sighting}
    (joins : Joins (asked marks) (raised marks) (passed marks ++ sightings) relay) :
    Passes marks sightings where
  once := joins.locates.once
  located host address := by
    rw [← joins.locates.known]
    exact joins.locates.located host address
  resolved service host member :=
    joins.resolves.resolved service host (List.mem_append_right _ member)
  bounded service := Nat.le_trans (Nat.le_add_right _ _) (joins.resolves.count service)
  answered service host asked names := by
    refine (joins.resolves.answered service asked).resolve_left ?_
    intro wanted
    exact joins.resolves.unknown service host (joins.resolves.wanted service wanted) names
  found := joins.found

/-- Every poll passed on what it should. -/
def Polled (marks : List Mark) : Prop :=
  ∀ before sightings, before ++ [.passed sightings] <+: marks → Passes before sightings

/-- A mark that is no poll leaves the polls as they were. -/
theorem Polled.concat (polled : Polled marks) {mark : Mark}
    (new : ∀ sightings, mark = .passed sightings → Passes marks sightings) :
    Polled (marks ++ [mark]) := by
  intro before sightings earlier
  rcases List.prefix_concat_iff.mp earlier with last | earlier
  · rcases List.append_inj' last rfl with ⟨rfl, same⟩
    exact new sightings (List.singleton_inj.mp same).symm
  · exact polled before sightings earlier

/-- Every turn leaves the polls in order. -/
theorem Polled.turn (polled : Polled marks) (agrees : Agrees marks relay) (turn : Turn) :
    Polled (marks ++ (relay.turn turn).1) := by
  cases turn with
  | ask inquiry => exact polled.concat nofun
  | raise channel notice =>
      simp only [Relay.turn]
      cases relay.channels[channel]? with
      | none => simpa using polled
      | some opened => exact polled.concat nofun
  | poll =>
      refine polled.concat ?_
      intro sightings same
      cases same
      exact agrees.poll.2.2.passes

/-- Questions may be put to a new relay, notices be raised and the relay be polled in any order.
Every poll passes on what was asked for and said, and nothing else, and so does the next one. -/
theorem relay_account (turns : List Turn) :
    Polled (workBy turns {}).1 ∧ Passes (workBy turns {}).1 (workBy turns {}).2.poll.1 := by
  have start : Agrees [] {} ∧ Polled [] := ⟨agrees_fresh, by simp [Polled]⟩
  have keeps (marks : List Mark) (relay : Relay) (next : Turn)
      (both : Agrees marks relay ∧ Polled marks) :
      Agrees (marks ++ (relay.turn next).1) (relay.turn next).2 ∧
        Polled (marks ++ (relay.turn next).1) :=
    ⟨both.1.turn next, both.2.turn both.1 next⟩
  have after := play_preserves keeps turns start
  exact ⟨after.2, after.1.poll.2.2.passes⟩

end Relay

end BridgeFinder.Mdns
