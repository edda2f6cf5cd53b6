import Calculator.Proofs.Counting.Exactness
import Calculator.Proofs.Counting.Limits

/-!
# When a binomial coefficient is infinite

A step of a binomial coefficient multiplies before it divides. So the coefficient that is formed is
finite exactly if its last dividend, the number of steps times the coefficient, is below the limit of
the finite numbers (`combination_isFinite_iff`). A coefficient that is itself a finite number can
have a dividend that is not (`combination_overflows_early`).

After step `k` the number is either infinite or has been rounded twice for every step, so that it is
near to the exact coefficient (`choose_cases`). Whether the next product overflows then depends on
the exact dividend alone, because no dividend is too near to the limit for this.
-/

namespace Calculator.Counting

open Binary64 (overflowLimit infinite)

variable {x : Binary64} {rest k m d : Nat}

/-! ## One step -/

/-- The next coefficient is the product with the next factor, divided by the number of the step. -/
theorem choose_mul_div (rest k : Nat) :
    ((rest + k).choose k * (rest + (k + 1) : ℕ) / (k + 1 : ℕ) : ℚ) =
      (rest + (k + 1)).choose (k + 1) := by
  have hne : ((k + 1 : ℕ) : ℚ) ≠ 0 := Nat.cast_ne_zero.2 (Nat.succ_ne_zero k)
  rw [div_eq_iff hne]
  exact_mod_cast (dividend_succ rest k).symm.trans (Nat.mul_comm _ _)

/-- A step whose product is below the limit adds two roundings. The quotient needs no test, because it
is not larger than the product. -/
theorem chooseStep_approximates (h : x.Approximates ((rest + k).choose k) (2 * k))
    (hk : k ≤ 2 ^ 11) (hbound : rest + (k + 1) ≤ 2 ^ 53)
    (hlt : x.value * (rest + (k + 1) : ℕ) < overflowLimit) :
    (chooseStep rest x (k + 1)).Approximates ((rest + (k + 1)).choose (k + 1)) (2 * (k + 1)) := by
  have hone : (1 : ℚ) ≤ (rest + k).choose k := by
    exact_mod_cast Nat.choose_pos (Nat.le_add_left k rest)
  have hproduct := h.mul_ofNat hone (by omega) (by omega) hbound hlt
  have hle : ((k + 1 : ℕ) : ℚ) ≤ (rest + k).choose k * (rest + (k + 1) : ℕ) := by
    calc ((k + 1 : ℕ) : ℚ) ≤ (rest + (k + 1) : ℕ) := by exact_mod_cast Nat.le_add_left _ _
      _ ≤ (rest + k).choose k * (rest + (k + 1) : ℕ) :=
        le_mul_of_one_le_left (Nat.cast_nonneg _) hone
  rw [← choose_mul_div]
  exact hproduct.div_ofNat (by omega) (Nat.succ_pos k) (by omega) hle

/-- A step whose product is not below the limit leads to an infinity. -/
theorem chooseStep_eq_infinite (h : x.Approximates ((rest + k).choose k) (2 * k))
    (hbound : rest + (k + 1) ≤ 2 ^ 53) (hle : overflowLimit ≤ x.value * (rest + (k + 1) : ℕ)) :
    chooseStep rest x (k + 1) = infinite false := by
  rw [chooseStep, h.mul_ofNat_eq_infinite hbound hle, Binary64.infinite_div_ofNat (by omega)]

/-! ## All steps -/

/-- The first coefficient is exact. -/
theorem choose_zero_approximates (rest : Nat) :
    (choose rest 1 1 0).Approximates ((rest + 0).choose 0) (2 * 0) := by
  obtain ⟨rank, hrank, -⟩ := Binary64.exists_ofNat_eq (a := 1) (by decide)
  obtain ⟨-, hvalue⟩ := Binary64.isExactly_ofNat (a := 1) (by decide)
  refine ⟨⟨rank, hrank⟩, ?_⟩
  have hexact : (choose rest 1 1 0).value = 1 := hvalue.trans Nat.cast_one
  simp [hexact]

/-- After every step a coefficient is infinite or near to the exact one. -/
theorem choose_cases (hk : k ≤ 2 ^ 11) (hbound : rest + k ≤ 2 ^ 53) :
    choose rest 1 1 k = infinite false ∨
      (choose rest 1 1 k).Approximates ((rest + k).choose k) (2 * k) := by
  induction k with
  | zero => exact .inr (choose_zero_approximates rest)
  | succ k ih =>
    rw [choose_succ Nat.one_pos (by omega), Nat.add_comm 1 k]
    -- An infinity stays. From a finite number on the next product decides.
    rcases ih (by omega) (by omega) with hinfinite | happrox
    · rw [hinfinite]
      exact .inl (chooseStep_of_isInfinite rfl (Nat.succ_pos k) hbound)
    · rcases lt_or_ge ((choose rest 1 1 k).value * (rest + (k + 1) : ℕ)) overflowLimit with hlt | hle
      · exact .inr (chooseStep_approximates happrox (by omega) hbound hlt)
      · exact .inl (chooseStep_eq_infinite happrox hbound hle)

/-- The product before a division is near to the exact dividend. -/
theorem abs_product_sub_le (h : x.Approximates ((rest + k).choose k) (2 * k)) (hk : k ≤ 2 ^ 11) :
    |x.value * (rest + (k + 1) : ℕ) - dividend rest (k + 1)| ≤ dividend rest (k + 1) / 2 ^ 40 := by
  have hexact : (dividend rest (k + 1) : ℚ) = (rest + k).choose k * (rest + (k + 1) : ℕ) := by
    exact_mod_cast dividend_succ rest k
  have hfew : ((2 * k : ℕ) / 2 ^ 52 : ℚ) ≤ 1 / 2 ^ 40 := by
    have hk' : ((2 * k : ℕ) : ℚ) ≤ 2 ^ 12 := by exact_mod_cast (by omega : 2 * k ≤ 2 ^ 12)
    rw [div_le_iff₀ (by norm_num)]
    linarith
  have hcast : (0 : ℚ) ≤ (rest + (k + 1) : ℕ) := Nat.cast_nonneg _
  rw [hexact, ← sub_mul, abs_mul, abs_of_nonneg hcast]
  calc |x.value - (rest + k).choose k| * (rest + (k + 1) : ℕ)
      ≤ (2 * k : ℕ) / 2 ^ 52 * (rest + k).choose k * (rest + (k + 1) : ℕ) :=
        mul_le_mul_of_nonneg_right h.abs_sub_le hcast
    _ ≤ 1 / 2 ^ 40 * (rest + k).choose k * (rest + (k + 1) : ℕ) :=
        mul_le_mul_of_nonneg_right (mul_le_mul_of_nonneg_right hfew (Nat.cast_nonneg _)) hcast
    _ = (rest + k).choose k * (rest + (k + 1) : ℕ) / 2 ^ 40 := by ring

/-- A dividend that is clearly below the limit stays below it. -/
theorem ClearlyBelow.lt_of_near {y : ℚ} (h : ClearlyBelow d) (hy : |y - d| ≤ d / 2 ^ 40) :
    y < overflowLimit := by
  unfold ClearlyBelow at h
  -- Only that it is a number matters from here on.
  generalize overflowLimit = limit at h ⊢
  have h' : (d * (2 ^ 40 + 1) : ℚ) < limit * 2 ^ 40 := by exact_mod_cast h
  have := (abs_le.1 hy).2
  linarith

/-- A dividend that is clearly above the limit stays above it. -/
theorem ClearlyAbove.le_of_near {y : ℚ} (h : ClearlyAbove d) (hy : |y - d| ≤ d / 2 ^ 40) :
    overflowLimit ≤ y := by
  unfold ClearlyAbove at h
  generalize overflowLimit = limit at h ⊢
  have hsum : limit * 2 ^ 40 + d ≤ d * 2 ^ 40 := by
    rw [Nat.mul_sub, Nat.mul_one] at h
    exact Nat.add_le_of_le_sub (Nat.le_mul_of_pos_right d (Nat.two_pow_pos 40)) h
  have h' : (limit * 2 ^ 40 + d : ℚ) ≤ d * 2 ^ 40 := by exact_mod_cast hsum
  have := (abs_le.1 hy).1
  linarith

/-- A coefficient is finite if its last dividend is clearly below the limit. -/
theorem choose_approximates (hk : k ≤ 2 ^ 11) (hbound : rest + k ≤ 2 ^ 53)
    (h : ClearlyBelow (dividend rest k)) :
    (choose rest 1 1 k).Approximates ((rest + k).choose k) (2 * k) := by
  induction k with
  | zero => exact choose_zero_approximates rest
  | succ k ih =>
    have happrox := ih (by omega) (by omega) (h.mono (dividend_mono rest (Nat.le_succ k)))
    rw [choose_succ Nat.one_pos (by omega), Nat.add_comm 1 k]
    exact chooseStep_approximates happrox (by omega) hbound
      (h.lt_of_near (abs_product_sub_le happrox (by omega)))

/-- It is infinite if its last dividend is clearly above the limit. -/
theorem choose_eq_infinite (hk : k ≤ 2 ^ 11) (hbound : rest + k ≤ 2 ^ 53)
    (h : ClearlyAbove (dividend rest k)) : choose rest 1 1 k = infinite false := by
  cases k with
  | zero =>
    have hzero : dividend rest 0 = 0 := Nat.zero_mul _
    rw [hzero, ClearlyAbove, Nat.zero_mul] at h
    exact absurd h (by decide +kernel)
  | succ k =>
    rw [choose_succ Nat.one_pos (by omega), Nat.add_comm 1 k]
    have hcases : choose rest 1 1 k = infinite false ∨
        (choose rest 1 1 k).Approximates ((rest + k).choose k) (2 * k) :=
      choose_cases (by omega) (by omega)
    rcases hcases with hinfinite | happrox
    · rw [hinfinite]
      exact chooseStep_of_isInfinite rfl (Nat.succ_pos k) hbound
    · exact chooseStep_eq_infinite happrox hbound
        (h.le_of_near (abs_product_sub_le happrox (by omega)))

/-- A coefficient that is infinite after one step is so after all later ones. -/
theorem choose_eq_infinite_of_le (h : choose rest 1 1 k = infinite false) (hle : k ≤ m)
    (hbound : rest + m ≤ 2 ^ 53) : choose rest 1 1 m = infinite false := by
  induction m, hle using Nat.le_induction with
  | base => exact h
  | succ m hle ih =>
    rw [choose_succ Nat.one_pos (by omega), ih (by omega)]
    exact chooseStep_of_isInfinite rfl (by omega) (by omega)

/-! ## Finite coefficients -/

/-- What is clearly below the limit is below it. -/
theorem ClearlyBelow.lt (h : ClearlyBelow d) : d < overflowLimit := by
  have hlt := h.lt_of_near (y := d) (by rw [sub_self, abs_zero]; positivity)
  exact_mod_cast hlt

/-- What is clearly above the limit is not below it. -/
theorem ClearlyAbove.le (h : ClearlyAbove d) : overflowLimit ≤ d := by
  have hle := h.le_of_near (y := d) (by rw [sub_self, abs_zero]; positivity)
  exact_mod_cast hle

/-- The last dividend is above the limit if it is so as a product of numbers from the number of
things down. -/
theorem clearlyAbove_dividend
    (h : overflowLimit * 2 ^ 40 * k.factorial ≤
      (rest + k + 1) * fallingProduct (rest + k) k * (2 ^ 40 - 1)) :
    ClearlyAbove (dividend rest (k + 1)) :=
  clearlyAbove_of_fallingProduct h

/-- With at least as many things left as are chosen, the last dividend decides. -/
theorem choose_isFinite_iff (hm : m ≤ rest) (hbound : rest + m < 2 ^ 32) :
    (choose rest 1 1 m).isFinite = true ↔ dividend rest m < overflowLimit := by
  rcases Nat.lt_or_ge 510 m with hlarge | hsmall
  · -- There is an infinity after 511 steps, and it stays.
    have habove : ClearlyAbove (dividend rest 511) := clearlyAbove_of_le (by omega)
    have hinfinite : choose rest 1 1 m = infinite false :=
      choose_eq_infinite_of_le (choose_eq_infinite (by decide) (by omega) habove) hlarge (by omega)
    have hle : overflowLimit ≤ dividend rest m := habove.le.trans (dividend_mono rest hlarge)
    rw [hinfinite]
    exact iff_of_false nofun (Nat.not_lt.2 hle)
  · have hclear : ClearlyBelow (dividend rest m) ∨ ClearlyAbove (dividend rest m) := by
      rcases Nat.eq_zero_or_pos m with rfl | hpos
      · refine .inl ?_
        rw [dividend, Nat.zero_mul, ClearlyBelow]
        decide +kernel
      · exact clearlyBelow_or_clearlyAbove hpos hsmall hbound
    -- No dividend is so near to the limit that the roundings could matter.
    rcases hclear with hbelow | habove
    · obtain ⟨rank, hrank⟩ := (choose_approximates (by omega) (by omega) hbelow).exists_rank
      rw [hrank]
      exact iff_of_true rfl hbelow.lt
    · rw [choose_eq_infinite (by omega) (by omega) habove]
      exact iff_of_false nofun (Nat.not_lt.2 habove.le)

/-- **Which binomial coefficients are finite.** The number of ways to choose `r` of `n` things is
finite exactly if the product before its last division is rounded to a finite number: the coefficient
times the smaller one of the numbers of things that are chosen and that are left. -/
theorem combination_isFinite_iff (n r : BitVec 32) :
    (combination n.toNat r.toNat).isFinite = true ↔
      min r.toNat (n.toNat - r.toNat) * n.toNat.choose r.toNat < 2 ^ 1024 - 2 ^ 970 := by
  have hn := n.isLt
  rcases Nat.lt_or_ge n.toNat r.toNat with hlt | hle
  · have hzero : combination n.toNat r.toNat = 0 := if_pos hlt
    rw [hzero, Nat.choose_eq_zero_of_lt hlt, Nat.mul_zero]
    exact iff_of_true (Binary64.isExactly_ofNat (by decide)).1 (by decide +kernel)
  · generalize hm : min r.toNat (n.toNat - r.toNat) = m
    have hiff : (choose (n.toNat - m) 1 1 m).isFinite = true ↔
        dividend (n.toNat - m) m < overflowLimit :=
      choose_isFinite_iff (by omega) (by omega)
    rw [← hm, dividend_min hle, ← combination_eq_choose hle, hm, overflowLimit] at hiff
    exact hiff

/-- A coefficient can be infinite although there is a finite number that is larger than the exact
one. -/
theorem combination_overflows_early :
    496 ≤ 1021 ∧
      (∃ x : Binary64, x.isFinite = true ∧ ((Nat.choose 1021 496 : ℕ) : ℚ) ≤ x.value) ∧
      (combination 1021 496).isFinite = false := by
  refine ⟨by decide, ⟨.finite false ⟨Binary64.magnitudes - 1, by decide⟩, rfl, ?_⟩, ?_⟩
  · have hle : Nat.choose 1021 496 * Binary64.unitsPerOne ≤
        Binary64.units (Binary64.magnitudes - 1) := by
      -- As a multiple of it the coefficient is a product.
      refine Nat.le_of_mul_le_mul_left ?_ (Nat.factorial_pos 496)
      rw [← Nat.mul_assoc, ← fallingProduct_eq]
      decide +kernel
    rw [Binary64.value_finite_false, le_div_iff₀ Binary64.unitsPerOne_cast_pos]
    exact_mod_cast hle
  · have habove : ClearlyAbove (dividend 525 (495 + 1)) :=
      clearlyAbove_dividend (by decide +kernel)
    have hinfinite : choose 525 1 1 (495 + 1) = infinite false :=
      choose_eq_infinite (by decide) (by decide) habove
    have hcombination : combination 1021 496 = choose 525 1 1 496 :=
      combination_eq_choose (by decide)
    rw [hcombination, hinfinite]
    rfl

end Calculator.Counting
