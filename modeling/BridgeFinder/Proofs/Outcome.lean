import Mathlib.Data.Option.Basic

/-!
# Outcomes

A computation either comes to a value or fails.  One that is made of two comes to a value exactly if
both do.
-/

namespace BridgeFinder

variable {ε δ α β : Type}

theorem toOption_bind (result : Except ε α) (next : α → Except ε β) :
    (result >>= next).toOption = result.toOption.bind fun value => (next value).toOption := by
  cases result <;> rfl

theorem toOption_eq_some {result : Except ε α} {value : α} :
    result.toOption = some value ↔ result = .ok value := by
  cases result <;> simp [Except.toOption]

/-- Two computations that come to the same values differ in their failures only. -/
theorem toOption_congr {result : Except ε α} {other : Except δ α}
    (same : ∀ value, result = .ok value ↔ other = .ok value) :
    result.toOption = other.toOption :=
  Option.ext fun value => by rw [toOption_eq_some, toOption_eq_some, same]

theorem bind_eq_ok {result : Except ε α} {next : α → Except ε β} {value : β} :
    result >>= next = .ok value ↔ ∃ given, result = .ok given ∧ next given = .ok value := by
  cases result <;> simp [bind, Except.bind]

theorem mapError_eq_ok {result : Except ε α} {change : ε → δ} {value : α} :
    result.mapError change = .ok value ↔ result = .ok value := by
  cases result <;> simp [Except.mapError]

end BridgeFinder
