import Calculator.Binary64.Arithmetic
import Calculator.Proofs.Binary64.Format
import Calculator.Proofs.Binary64.Reading

/-!
# Natural numbers among the floating-point numbers

Every natural number up to `2 ^ 53` is a floating-point number (`isExactly_ofNat`), and the nearest
number to a magnitude is this magnitude. So the product of two of them is exact if it is at most
`2 ^ 53`, and so is a quotient without remainder (`ofNat_mul_ofNat`, `ofNat_mul_div_ofNat`).
-/

namespace Calculator.Binary64

variable {x : Binary64} {negative : Bool} {rank : Fin magnitudes} {a b num den : Nat}

/-- The number is finite, and it is the natural number `a`. -/
def IsExactly (x : Binary64) (a : Nat) : Prop := x.isFinite = true ∧ x.value = a

/-! ## Magnitudes of natural numbers -/

/-- Doubling a number that is not zero leads past the least significand, and not far. -/
theorem exists_shift (hpos : 0 < a) (ha : a ≤ 2 ^ 53) :
    ∃ j, j ≤ 52 ∧ 2 ^ 52 ≤ a * 2 ^ j ∧ a * 2 ^ j ≤ 2 ^ 53 := by
  have hlow : 2 ^ a.log2 ≤ a := Nat.log2_self_le (Nat.pos_iff_ne_zero.1 hpos)
  have hhigh : a < 2 ^ (a.log2 + 1) := Nat.lt_log2_self
  rcases Nat.lt_or_ge a.log2 53 with hlog | hlog
  · refine ⟨52 - a.log2, by omega, ?_, ?_⟩
    · calc 2 ^ 52 = 2 ^ a.log2 * 2 ^ (52 - a.log2) := by rw [← Nat.pow_add]; congr 1; omega
        _ ≤ a * 2 ^ (52 - a.log2) := Nat.mul_le_mul_right _ hlow
    · calc a * 2 ^ (52 - a.log2) ≤ 2 ^ (a.log2 + 1) * 2 ^ (52 - a.log2) :=
            Nat.mul_le_mul_right _ hhigh.le
        _ = 2 ^ 53 := by rw [← Nat.pow_add]; congr 1; omega
  · have hlarge : 2 ^ 53 ≤ a := (Nat.pow_le_pow_right (by decide) hlog).trans hlow
    exact ⟨0, by omega, by omega, by omega⟩

/-- A natural number up to `2 ^ 53` is a magnitude. -/
theorem exists_units_eq (ha : a ≤ 2 ^ 53) :
    ∃ rank : Fin magnitudes, units rank = a * unitsPerOne := by
  rcases Nat.eq_zero_or_pos a with rfl | hpos
  · exact ⟨⟨0, by decide⟩, by rw [units_zero, Nat.zero_mul]⟩
  · obtain ⟨j, hj, hlow, hhigh⟩ := exists_shift hpos ha
    have hbound : a * 2 ^ j + (1074 - j) * 2 ^ 52 < magnitudes := by
      have : magnitudes = 2047 * 2 ^ 52 := rfl
      omega
    refine ⟨⟨_, hbound⟩, ?_⟩
    rw [units_significand hhigh (.inr hlow), Nat.mul_assoc, ← Nat.pow_add,
      show j + (1074 - j) = 1074 by omega, unitsPerOne]

/-! ## Conversion and operations -/

/-- A quotient that is a magnitude needs no rounding. -/
theorem ofUnits_eq_finite (hden : 0 < den) (h : num = units rank * den) :
    ofUnits negative num den = finite negative rank := by
  have hnearest : nearestRank num den = rank := by
    have hden' : (den : ℚ) ≠ 0 := Nat.cast_ne_zero.2 hden.ne'
    rw [nearestRank_eq_iff hden, h, Nat.cast_mul, mul_div_cancel_right₀ _ hden']
    exact isNearest_units rank
  rw [ofUnits, hnearest, ofRank, dif_pos rank.isLt]

/-- A natural number that is a magnitude is converted to it. -/
theorem ofNat_eq_finite (h : units rank = a * unitsPerOne) : ofNat a = finite false rank := by
  rw [ofNat, ofQuotient]
  exact ofUnits_eq_finite Nat.one_pos (by rw [h, Nat.mul_one])

/-- A natural number up to `2 ^ 53` is converted to its magnitude. -/
theorem exists_ofNat_eq (ha : a ≤ 2 ^ 53) :
    ∃ rank : Fin magnitudes, ofNat a = finite false rank ∧ units rank = a * unitsPerOne := by
  obtain ⟨rank, hrank⟩ := exists_units_eq ha
  exact ⟨rank, ofNat_eq_finite hrank, hrank⟩

/-- A positive number does not have the magnitude zero. -/
theorem ne_zero_of_units (h : units rank = a * unitsPerOne) (hpos : 0 < a) : rank.val ≠ 0 := by
  intro hzero
  rw [hzero, units_zero] at h
  exact (Nat.mul_pos hpos unitsPerOne_pos).ne h

/-- A natural number up to `2 ^ 53` is converted exactly. -/
theorem isExactly_ofNat (ha : a ≤ 2 ^ 53) : IsExactly (ofNat a) a := by
  obtain ⟨rank, hrank, hunits⟩ := exists_ofNat_eq ha
  rw [hrank]
  refine ⟨rfl, ?_⟩
  have hcast : ((finite false rank).signedUnits : ℚ) = a * unitsPerOne := by
    exact_mod_cast congrArg Int.ofNat hunits
  rw [value, hcast, mul_div_cancel_right₀ _ unitsPerOne_cast_pos.ne']

/-- The product of magnitudes. -/
theorem finite_mul_finite (x y : Fin magnitudes) :
    finite false x * finite false y = ofUnits false (units x * units y) unitsPerOne := by
  change mul _ _ = _
  rw [mul, bne_self_eq_false]

/-- The quotient of magnitudes. -/
theorem finite_div_finite (x : Fin magnitudes) {y : Fin magnitudes} (hy : y.val ≠ 0) :
    finite false x / finite false y = ofUnits false (units x * unitsPerOne) (units y) := by
  change div _ _ = _
  rw [div, if_neg hy, bne_self_eq_false]

/-- The product of natural numbers is exact if it is at most `2 ^ 53`. -/
theorem ofNat_mul_ofNat (ha : a ≤ 2 ^ 53) (hb : b ≤ 2 ^ 53) (hab : a * b ≤ 2 ^ 53) :
    ofNat a * ofNat b = ofNat (a * b) := by
  obtain ⟨x, hx, hx'⟩ := exists_ofNat_eq ha
  obtain ⟨y, hy, hy'⟩ := exists_ofNat_eq hb
  obtain ⟨z, hz, hz'⟩ := exists_ofNat_eq hab
  rw [hx, hy, hz, finite_mul_finite]
  refine ofUnits_eq_finite unitsPerOne_pos ?_
  rw [hx', hy', hz']
  ring

/-- A quotient without remainder is exact if the numbers are at most `2 ^ 53`. -/
theorem ofNat_mul_div_ofNat (hb : 0 < b) (hb' : b ≤ 2 ^ 53) (hab : a * b ≤ 2 ^ 53) :
    ofNat (a * b) / ofNat b = ofNat a := by
  obtain ⟨x, hx, hx'⟩ := exists_ofNat_eq hab
  obtain ⟨y, hy, hy'⟩ := exists_ofNat_eq hb'
  obtain ⟨z, hz, hz'⟩ := exists_ofNat_eq ((Nat.le_mul_of_pos_right a hb).trans hab)
  have hpos : 0 < units y := hy' ▸ Nat.mul_pos hb unitsPerOne_pos
  rw [hx, hy, hz, finite_div_finite x (ne_zero_of_units hy' hb)]
  refine ofUnits_eq_finite hpos ?_
  rw [hx', hy', hz']
  ring

/-! ## Infinities -/

/-- An infinity stays as it is when it is multiplied by a positive number. -/
theorem infinite_mul_ofNat (hpos : 0 < a) (ha : a ≤ 2 ^ 53) :
    infinite negative * ofNat a = infinite negative := by
  obtain ⟨rank, hrank, hunits⟩ := exists_ofNat_eq ha
  rw [hrank]
  refine (if_neg (ne_zero_of_units hunits hpos)).trans ?_
  rw [Bool.bne_false]

/-- An infinity stays as it is when it is divided by a natural number. -/
theorem infinite_div_ofNat (ha : a ≤ 2 ^ 53) :
    infinite negative / ofNat a = infinite negative := by
  obtain ⟨rank, hrank, -⟩ := exists_ofNat_eq ha
  rw [hrank]
  exact congrArg infinite (Bool.bne_false negative)

end Calculator.Binary64
