import BridgeFinder.Mdns.Collect
import BridgeFinder.Proofs.Task.Always

/-!
# What a collection finds

Every address that is collected was seen at some poll, in a state that the responder
had come to by the questions and the polls before.  Collecting requests no web page and reports no
event.
-/

namespace BridgeFinder

/-- No web page is requested. -/
def Activity.IsOffline (activity : Activity) : Prop :=
  activity.url? = none

/-- No web page is requested, and no event is reported. -/
structure Activity.IsProbe (activity : Activity) : Prop where
  offline : activity.IsOffline
  unreported : activity.event? = none

namespace Mdns

open BridgeFinder.Task (Always)
open Activity (IsProbe)

variable {π α : Type} {responder : Responder π}

/-- A responder comes from one state to another by answering questions and being
polled. -/
inductive Responder.Reaches (responder : Responder π) (start : π) : π → Prop where
  | start : Reaches responder start start
  | ask {state : π} (inquiry : Inquiry) (reached : Reaches responder start state) :
      Reaches responder start (responder.ask inquiry state).2
  | poll {state : π} (reached : Reaches responder start state) :
      Reaches responder start (responder.poll state).2

/-- A responder that begins in a given state may see a host at an address. -/
def Responder.Sees (responder : Responder π) (start : π) (host : String) (address : Net.Ipv4) :
    Prop :=
  ∃ state, responder.Reaches start state ∧ .located host address ∈ (responder.poll state).1

/-- All hosts have been seen at their addresses. -/
def Hosts.AreSeen (hosts : Hosts) (responder : Responder π) (start : π) : Prop :=
  ∀ host address, (host, address) ∈ hosts → responder.Sees start host address

variable {start : π} {fine : α → Prop}

/-- Noting what a poll has seen adds only what has been seen. -/
theorem Hosts.AreSeen.noted {hosts : Hosts} {state : π} {sighting : Sighting}
    (seen : hosts.AreSeen responder start) (reached : responder.Reaches start state)
    (member : sighting ∈ (responder.poll state).1) :
    (sighting.noted hosts).AreSeen responder start := by
  cases sighting with
  | found | resolved => exact seen
  | located host address =>
      intro host' address' noted
      simp only [Sighting.noted, Hosts.note] at noted
      split at noted
      · exact seen host' address' noted
      · rcases List.mem_append.mp noted with old | new
        · exact seen host' address' old
        · cases List.mem_singleton.mp new
          exact ⟨state, reached, member⟩

namespace Collect

theorem always_browse {types : List String} {browsed : Browsed} {state : π}
    {next : Browsed → π → Task Activity α} (reached : responder.Reaches start state)
    (always : ∀ browsed state, responder.Reaches start state →
      Always IsProbe fine (next browsed state)) :
    Always IsProbe fine (browse responder types browsed state next) := by
  induction types generalizing browsed state with
  | nil => exact always browsed state reached
  | cons type rest ih => exact .emit ⟨rfl, rfl⟩ (ih (.ask _ reached))

theorem always_follow {sightings : List Sighting} {hosts : Hosts} {polled state : π}
    {next : Hosts → π → Task Activity α} (before : responder.Reaches start polled)
    (seen : hosts.AreSeen responder start)
    (members : ∀ sighting ∈ sightings, sighting ∈ (responder.poll polled).1)
    (reached : responder.Reaches start state)
    (always : ∀ hosts state, hosts.AreSeen responder start → responder.Reaches start state →
      Always IsProbe fine (next hosts state)) :
    Always IsProbe fine (follow responder sightings hosts state next) := by
  induction sightings generalizing hosts state with
  | nil => exact always hosts state seen reached
  | cons sighting rest ih =>
      rcases List.forall_mem_cons.mp members with ⟨member, later⟩
      have noted := seen.noted before member
      cases sighting with
      | found | resolved => exact .emit ⟨rfl, rfl⟩ (ih noted later (.ask _ reached))
      | located => exact ih noted later reached

theorem always_poll {pollTimeout polls window : Nat} {hosts : Hosts} {state : π}
    (seen : hosts.AreSeen responder start) (reached : responder.Reaches start state) :
    Always IsProbe (·.AreSeen responder start)
      (poll responder pollTimeout polls window hosts state) := by
  induction polls generalizing window hosts state with
  | zero =>
      rw [poll]
      apply Always.check
      intro cancelled
      split <;> exact .done seen
  | succ polls ih =>
      rw [poll]
      apply Always.check
      intro cancelled
      split
      · exact .done seen
      · have after : responder.Reaches start (responder.poll state).2 := .poll reached
        rcases polled : responder.poll state with ⟨_ | ⟨sighting, rest⟩, next⟩
        · rw [polled] at after
          exact .emit ⟨rfl, rfl⟩ (.emit ⟨rfl, rfl⟩ (.hold (ih seen after)))
        · rw [polled] at after
          refine always_follow reached seen ?_ after fun hosts state => ih
          simp [polled]

end Collect

/-- What is collected has been seen.  No web page is requested for it, and no event reported. -/
theorem always_collect {settings : Settings.Browse} {polls : Nat} :
    Always IsProbe (fun collected => ∀ hosts, collected = .ok hosts →
        hosts.AreSeen responder start)
      (collect responder settings polls start) := by
  apply Collect.always_browse .start
  intro browsed state reached
  split
  · exact .done nofun
  · have none : Hosts.AreSeen [] responder start := fun _ _ member => absurd member List.not_mem_nil
    apply (Collect.always_poll none reached).map
    intro hosts seen
    rintro _ ⟨⟩
    exact seen

end Mdns

end BridgeFinder
