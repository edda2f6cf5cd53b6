import Calculator.Proofs.Binary64.Nearest
import Calculator.Proofs.Decimal.Value

/-!
# The number that a decimal is read as

Reading a decimal gives the number with the rank nearest to its value (`ofDecimal_eq_ofRank`). A
decimal with its leading digit far behind the point is nearest to zero, and one with its leading
digit far before it is past every finite magnitude, so that forming no quotient for these is the
same as rounding it.
-/

namespace Calculator.Binary64

variable {r : Nat} {d : Decimal} {negative : Bool}

/-- A quotient is read as the number with the nearest rank. -/
theorem ofQuotient_eq_ofRank {num den : Nat} (hden : 0 < den)
    (h : IsNearest (num / den * unitsPerOne) r) :
    ofQuotient negative num den = ofRank negative r := by
  have hrank : nearestRank (num * unitsPerOne) den = r := by
    rw [nearestRank_eq_iff hden, Nat.cast_mul, mul_div_right_comm]
    exact h
  rw [ofQuotient, ofUnits, hrank]

/-- A power of ten is the same as a natural and as a rational number. -/
theorem cast_pow_ten (n : Nat) : ((10 ^ n : Nat) : ℚ) = 10 ^ (n : ℤ) := by
  rw [zpow_natCast, Nat.cast_pow, Nat.cast_ofNat]

/-- Half of the least magnitude is above `10 ^ -331`. -/
theorem two_mul_unitsPerOne_lt : ((2 * unitsPerOne : Nat) : ℚ) < (10 ^ 331 : Nat) :=
  Nat.cast_lt.2 (by decide +kernel)

/-- The magnitude after the largest finite one is at most `10 ^ 310`. -/
theorem units_magnitudes_le : units magnitudes ≤ 10 ^ 310 * unitsPerOne := by
  have hrank : magnitudes = 2 ^ 52 + 2046 * 2 ^ 52 := by decide
  rw [hrank, units_significand (by decide) (.inr (Nat.le_refl _))]
  decide +kernel

/-- A decimal with its leading digit so far behind the point is nearest to zero. -/
theorem isNearest_zero_of_lt (h : (digitCount d.coefficient : ℤ) + d.exponent < -330) :
    IsNearest (d.value * unitsPerOne) 0 := by
  have hvalue : d.value < ((10 ^ 331 : Nat) : ℚ)⁻¹ := by
    calc d.value < 10 ^ ((digitCount d.coefficient : ℤ) + d.exponent) := d.value_lt
      _ ≤ 10 ^ (-((331 : Nat) : ℤ)) := zpow_le_zpow_right₀ (by norm_num) (by omega)
      _ = (10 ^ ((331 : Nat) : ℤ))⁻¹ := zpow_neg _ _
      _ = ((10 ^ 331 : Nat) : ℚ)⁻¹ := congrArg _ (cast_pow_ten 331).symm
  have hunit := two_mul_unitsPerOne_lt
  generalize ((10 ^ 331 : Nat) : ℚ) = p at hvalue hunit
  rw [Nat.cast_mul, Nat.cast_ofNat] at hunit
  have hunits : (0 : ℚ) ≤ unitsPerOne := Nat.cast_nonneg _
  have hp : 0 < p := by linarith
  have hone : d.value * p < 1 := by
    rw [← lt_div_iff₀ hp, one_div]
    exact hvalue
  have hlt : 2 * (d.value * unitsPerOne) < 1 := by
    calc 2 * (d.value * unitsPerOne) = d.value * (2 * unitsPerOne) := by ring
      _ ≤ d.value * p := mul_le_mul_of_nonneg_left hunit.le d.value_nonneg
      _ < 1 := hone
  -- Below rank 0 there is no other, so that the bound above it is enough.
  refine IsClose.isNearest ⟨?_, nofun⟩
  have hstep : step 0 = 1 := rfl
  rw [units_zero, hstep, Nat.cast_zero, Nat.cast_one, sub_zero]
  exact hlt

/-- A decimal with its leading digit so far before the point is past every finite magnitude. -/
theorem magnitudes_le_of_lt (hne : d.coefficient ≠ 0)
    (h : 310 < (digitCount d.coefficient : ℤ) + d.exponent)
    (hr : IsNearest (d.value * unitsPerOne) r) : magnitudes ≤ r := by
  have hvalue : ((10 ^ 310 : Nat) : ℚ) ≤ d.value := by
    calc ((10 ^ 310 : Nat) : ℚ) = 10 ^ ((310 : Nat) : ℤ) := cast_pow_ten 310
      _ ≤ 10 ^ ((digitCount d.coefficient : ℤ) + d.exponent - 1) :=
          zpow_le_zpow_right₀ (by norm_num) (by omega)
      _ ≤ d.value := Decimal.pow_le_value hne
  have hunits := units_magnitudes_le
  generalize 10 ^ 310 = p at hvalue hunits
  refine (isNearest_units magnitudes).mono hr ?_
  calc (units magnitudes : ℚ) ≤ p * unitsPerOne := by exact_mod_cast hunits
    _ ≤ d.value * unitsPerOne := mul_le_mul_of_nonneg_right hvalue (Nat.cast_nonneg _)

/-- A decimal is read as the number with the rank nearest to its value. -/
theorem ofDecimal_eq_ofRank (h : IsNearest (d.value * unitsPerOne) r) :
    ofDecimal negative d = ofRank negative r := by
  unfold ofDecimal
  dsimp only
  split_ifs with hsmall hlarge hexp
  -- No digits, or digits too far behind the point.
  · have hzero : IsNearest (d.value * unitsPerOne) 0 := by
      rcases hsmall with hc | hlt
      · have hvalue : d.value * unitsPerOne = units 0 := by
          rw [Decimal.value, hc, Nat.cast_zero, zero_mul, zero_mul, units_zero, Nat.cast_zero]
        rw [hvalue]
        exact isNearest_units 0
      · exact isNearest_zero_of_lt hlt
    rw [h.unique hzero]
  -- Digits too far before the point.
  · have hne : d.coefficient ≠ 0 := fun hc => hsmall (.inl hc)
    have hle := magnitudes_le_of_lt hne hlarge h
    rw [ofRank, dif_neg (by omega)]
  -- A power of ten in the number, and one in the divisor.
  · obtain ⟨n, hn⟩ := Int.eq_ofNat_of_zero_le hexp
    refine ofQuotient_eq_ofRank Nat.one_pos ?_
    rw [Decimal.value, hn, zpow_natCast] at h
    rw [hn, Int.toNat_natCast, Nat.cast_one, div_one]
    push_cast
    exact h
  · have hn : d.exponent = -(d.exponent.natAbs : ℤ) := by omega
    refine ofQuotient_eq_ofRank (Nat.pow_pos (by decide)) ?_
    rw [Decimal.value, hn, zpow_neg, zpow_natCast, ← div_eq_mul_inv] at h
    rw [Nat.cast_pow, Nat.cast_ofNat]
    exact h

end Calculator.Binary64
