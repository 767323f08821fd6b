import BridgeFinder.Discovery

/-!
# Asking for a search

A search that is asked for is answered by the state at the call: it is answered as busy if
a callback is parked, it is answered at once if the options select no method, and it is
accepted otherwise.
-/

namespace BridgeFinder.Discovery

variable {discovery : Discovery} {options : Options}

theorem verdict_eq_busy :
    discovery.verdict options = .busy ↔ discovery.parked.isSome = true := by
  unfold verdict
  by_cases parked : discovery.parked.isSome = true
  · simp [parked]
  · rw [if_neg parked]
    cases discovery.resolve options <;> simp [parked]

/-- Where no method is made, the slot is free and the options select none. -/
theorem verdict_eq_missing :
    discovery.verdict options = .missing ↔
      discovery.parked = none ∧ discovery.resolve options = [] := by
  unfold verdict
  cases discovery.parked with
  | some callback => simp
  | none => cases discovery.resolve options <;> simp

theorem verdict_eq_accepted {number : Nat} {methods : List Method} :
    discovery.verdict options = .accepted number methods ↔
      discovery.parked = none ∧ discovery.resolve options = methods ∧ methods ≠ [] ∧
        number = discovery.accepted + 1 := by
  unfold verdict
  cases discovery.parked with
  | some callback => simp
  | none =>
      cases discovery.resolve options with
      | nil => simp +contextual [eq_comm]
      | cons method rest =>
          constructor
          · rintro ⟨⟩
            simp
          · rintro ⟨-, rfl, -, rfl⟩
            rfl

/-- A search that is asked for while a callback is parked is answered as busy, and that is
all. -/
theorem searchWith_of_busy (busy : discovery.verdict options = .busy) (callback : Callback) :
    discovery.searchWith options (some callback) =
      ([], discovery.post ⟨callback, [], .busy⟩) := by
  rcases Option.isSome_iff_exists.mp (verdict_eq_busy.mp busy) with ⟨other, parked⟩
  simp only [searchWith, reserve, parked]

/-- A search without methods is answered, and leaves the slot free. -/
theorem searchWith_of_missing (missing : discovery.verdict options = .missing)
    (callback : Callback) :
    discovery.searchWith options (some callback) =
      ([], discovery.post ⟨callback, [], .missingMethods⟩) := by
  rcases verdict_eq_missing.mp missing with ⟨free, none⟩
  rcases discovery with ⟨registry, identify, accepted, parked, job, session, dispatcher⟩
  obtain rfl : parked = .none := free
  simp only [resolve, nextSession] at none
  simp only [searchWith, reserve, resolve, nextSession, none, withdraw]

/-- A search that is accepted parks its callback and starts its job. -/
theorem searchWith_of_accepted {number : Nat} {methods : List Method}
    (accepted : discovery.verdict options = .accepted number methods) (callback : Callback) :
    discovery.searchWith options (some callback) =
      ([discovery.nextSession.started],
        { discovery with
          parked := some callback
          job := some (Job.new (Runner.ofMethods methods).execute).run.1
          session := some discovery.nextSession
          accepted := discovery.accepted + 1 }) := by
  rcases verdict_eq_accepted.mp accepted with ⟨free, made, some, -⟩
  cases methods with
  | nil => exact absurd rfl some
  | cons method rest =>
      simp only [resolve, nextSession] at made
      simp only [searchWith, reserve, free, resolve, nextSession, made]
      rfl

/-- How a search is received, and the discovery after it.  The three cases exclude one
another. -/
inductive Receives (discovery : Discovery) (options : Options) (callback : Callback) :
    Verdict → Discovery → Prop where
  /-- Another callback is parked, and the answer is posted. -/
  | busy (parked : discovery.parked.isSome = true) :
      Receives discovery options callback .busy (discovery.post ⟨callback, [], .busy⟩)
  /-- The slot is free and no method is made.  The answer is posted, and the slot is free
  again. -/
  | missing {after : Discovery} (free : discovery.parked = none)
      (unmade : discovery.resolve options = [])
      (posted : after = discovery.post ⟨callback, [], .missingMethods⟩)
      (freed : after.parked = none) : Receives discovery options callback .missing after
  /-- The slot is free and methods are made.  The callback is parked, and nothing is
  posted. -/
  | accepted {after : Discovery} (free : discovery.parked = none)
      (made : discovery.resolve options ≠ [])
      (number : after.accepted = discovery.accepted + 1) (parked : after.parked = some callback)
      (silent : after.dispatcher = discovery.dispatcher) :
      Receives discovery options callback
        (.accepted (discovery.accepted + 1) (discovery.resolve options)) after

/-- Every search is received by the state at the call. -/
theorem receives (discovery : Discovery) (options : Options) (callback : Callback) :
    Receives discovery options callback (discovery.verdict options)
      (discovery.searchWith options (some callback)).2 := by
  cases verdict : discovery.verdict options with
  | busy =>
      rw [searchWith_of_busy verdict]
      exact .busy (verdict_eq_busy.mp verdict)
  | missing =>
      rw [searchWith_of_missing verdict]
      rcases verdict_eq_missing.mp verdict with ⟨free, unmade⟩
      exact .missing free unmade rfl free
  | accepted number methods =>
      rw [searchWith_of_accepted verdict]
      rcases verdict_eq_accepted.mp verdict with ⟨free, rfl, made, rfl⟩
      exact .accepted free made rfl rfl rfl

end BridgeFinder.Discovery
