import BridgeFinder.Number.Binary64

/-!
# Rounding large integers

The double nearest to an integer is not below the largest power of two that the integer reaches.
So an integer beyond 63 bits stays beyond them when it is rounded, while a negative one counts as
zero where no sign is allowed.
-/

namespace BridgeFinder.Number.Binary64

theorem div_le_divideToEven (num den : Nat) : num / den ≤ divideToEven num den := by
  simp only [divideToEven]
  split
  · exact Nat.le_refl _
  · split
    · exact Nat.le_succ _
    · split
      · exact Nat.le_refl _
      · exact Nat.le_succ _

/-- A mantissa of which the exponent is natural stands for a whole number, or for infinity. -/
theorem infinite_or_finite {mantissa shift least : Nat}
    (enough : least ≤ mantissa * powerOfTwo shift) :
    (if (shift : Int) > largestExponent then infinite false else finite false mantissa shift) =
      infinite false ∨ ∃ m exponent : Nat,
        (if (shift : Int) > largestExponent then infinite false else finite false mantissa shift) =
          finite false m exponent ∧ least ≤ m * powerOfTwo exponent := by
  split
  · exact .inl rfl
  · exact .inr ⟨mantissa, shift, rfl, enough⟩

/-- An integer of more than 52 bits is rounded to a whole number that is not below its leading
power of two, or to infinity. -/
theorem ofRatio_one {n : Nat} (large : powerOfTwo 52 ≤ n) :
    ofRatio false n 1 = infinite false ∨
      ∃ mantissa exponent : Nat, ofRatio false n 1 = finite false mantissa exponent ∧
        powerOfTwo n.log2 ≤ mantissa * powerOfTwo exponent := by
  have positive : n ≠ 0 := by
    rintro rfl
    exact absurd large (by decide)
  have bits : 52 ≤ n.log2 := (Nat.le_log2 positive).mpr large
  obtain ⟨exponent, guess⟩ : ∃ exponent : Nat, n.log2 = 52 + exponent := ⟨n.log2 - 52, by omega⟩
  have reached : 2 ^ (52 + exponent) ≤ n := guess ▸ Nat.log2_self_le positive
  have notBelow : ¬ n < 1 * powerOfTwo (52 + exponent) := by
    simpa [powerOfTwo] using reached
  have mantissa : powerOfTwo 52 ≤ divideToEven n (1 * powerOfTwo exponent) := by
    refine Nat.le_trans ?_ (div_le_divideToEven _ _)
    have positive : 0 < powerOfTwo exponent := Nat.two_pow_pos exponent
    rw [Nat.one_mul, Nat.le_div_iff_mul_le positive]
    exact Nat.pow_add 2 52 exponent ▸ reached
  have guessed : (n.log2 : Int) - (Nat.log2 1 : Int) - 52 = exponent := by
    have one : Nat.log2 1 = 0 := by decide
    omega
  have kept : max leastExponent (exponent : Int) = exponent := by
    rw [leastExponent]; omega
  have natural : ¬ (exponent : Int) < 0 := by omega
  simp only [ofRatio, if_neg positive, guessed, if_neg natural, Int.natAbs_natCast, if_neg notBelow,
    kept]
  split
  · refine infinite_or_finite ?_
    rw [guess, powerOfTwo, powerOfTwo, powerOfTwo, Nat.pow_eq, Nat.pow_eq, Nat.pow_eq,
      ← Nat.pow_add]
    exact Nat.pow_le_pow_right (by decide) (by omega)
  · refine infinite_or_finite ?_
    rw [guess, powerOfTwo, Nat.pow_eq, Nat.pow_add]
    exact Nat.mul_le_mul_right _ mantissa

/-- An integer beyond 63 bits is still beyond them after it has been rounded. -/
theorem le_toNatClamped_ofDecimal {n limit : Nat} (large : powerOfTwo 63 ≤ n)
    (enough : powerOfTwo 63 ≤ limit) :
    powerOfTwo 63 ≤ (ofDecimal false n 0).toNatClamped limit := by
  have positive : n ≠ 0 := by
    rintro rfl
    exact absurd large (by decide)
  rw [ofDecimal]
  simp only [if_neg positive]
  split
  · exact enough
  · have near : ¬ ((0 : Int) + ((Nat.toDigits 10 n).length : Int) < -330) := by omega
    have scaled : n * powerOfTen (Int.natAbs 0) = n := Nat.mul_one n
    rw [if_neg near, if_neg (Int.lt_irrefl 0), scaled]
    rcases ofRatio_one (Nat.le_trans (by decide) large) with isInfinite |
      ⟨mantissa, exponent, isFinite, reached⟩
    · rw [isInfinite]
      exact enough
    · have natural : ¬ (exponent : Int) < 0 := by omega
      have bits : 63 ≤ n.log2 := (Nat.le_log2 positive).mpr large
      have value : powerOfTwo 63 ≤ mantissa * powerOfTwo exponent :=
        Nat.le_trans (Nat.pow_le_pow_right (by decide) bits) reached
      rw [isFinite, toNatClamped]
      simp only [Bool.false_eq_true, if_false, ratio, if_neg natural, Int.natAbs_natCast]
      omega

/-- A negative decimal counts as zero. -/
theorem toNatClamped_ofDecimal_true (n limit : Nat) :
    (ofDecimal true n 0).toNatClamped limit = 0 := by
  have sign (large : Prop) [Decidable large] (mantissa : Nat) (exponent : Int) :
      (if large then infinite true else finite true mantissa exponent).toNatClamped limit = 0 := by
    split <;> rfl
  have ratio (num : Nat) : (ofRatio true num 1).toNatClamped limit = 0 := by
    simp only [ofRatio]
    by_cases zero : num = 0
    · rw [if_pos zero]; rfl
    · rw [if_neg zero]; exact sign _ _ _
  simp only [ofDecimal]
  split
  · rfl
  · split
    · rfl
    · split
      · rfl
      · rw [if_neg (Int.lt_irrefl 0)]
        exact ratio _

end BridgeFinder.Number.Binary64
