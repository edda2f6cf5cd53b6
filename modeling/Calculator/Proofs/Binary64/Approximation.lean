import Calculator.Proofs.Binary64.Natural
import Calculator.Proofs.Binary64.Rounded

/-!
# Rounding errors and overflow

A number is rounded to an infinity from half a step past the largest finite number on
(`IsNearest.lt_magnitudes_iff`). Otherwise, if it is not too small, rounding changes it by at most one
part in `2 ^ 53` (`IsNearest.abs_sub_le`). A number that has been rounded up to `n` times on its way
differs from the exact one by at most `n` parts in `2 ^ 52` (`Approximates`), which counts every
rounding twice and so covers those of the errors as well.
-/

namespace Calculator.Binary64

variable {x : Binary64} {t u v : ℚ} {r n a num den : Nat} {negative : Bool} {rank : Fin magnitudes}

/-- What is at least as large is rounded to an infinity: the number halfway between the largest finite
number and the one that would follow it. -/
def overflowLimit : Nat := 2 ^ 1024 - 2 ^ 970

/-! ## One rounding -/

/-- The limit is halfway between the last magnitude and the one that would follow it. -/
theorem two_mul_overflowLimit :
    (2 * (overflowLimit * unitsPerOne) : ℚ) = units (magnitudes - 1) + units magnitudes := by
  have h : 2 * (overflowLimit * unitsPerOne) = units (magnitudes - 1) + units magnitudes := by
    decide +kernel
  exact_mod_cast h

/-- From the limit on, what is nearest is past the last magnitude. -/
theorem isNearest_overflowLimit : IsNearest (overflowLimit * unitsPerOne) magnitudes := by
  have heven : magnitudes % 2 = 0 := by decide
  have hlimit := two_mul_overflowLimit
  have hlt : (units (magnitudes - 1) : ℚ) < units (magnitudes + 1) := units_cast_lt (by omega)
  refine isNearest_of_middle (by linarith) (fun _ => heven) (fun p hp => ?_) fun _ _ _ => heven
  rw [hlimit, ← hp, Nat.add_sub_cancel]

/-- What is below the limit, and nothing else, is nearest to a finite magnitude. -/
theorem IsNearest.lt_magnitudes_iff (h : IsNearest t r) :
    r < magnitudes ↔ t < overflowLimit * unitsPerOne := by
  constructor
  · intro hr
    by_contra hle
    exact absurd (isNearest_overflowLimit.mono h (not_lt.1 hle)) (Nat.not_le.2 hr)
  · intro hlt
    by_contra hr
    -- The last magnitude would be nearer.
    have hlimit := two_mul_overflowLimit
    have hunits : (units magnitudes : ℚ) ≤ units r := units_cast_le (Nat.not_lt.1 hr)
    have hlast : (units (magnitudes - 1) : ℚ) < units r :=
      (units_cast_lt (by decide)).trans_le hunits
    exact (h.le (magnitudes - 1)).not_gt ((abs_sub_lt_abs_sub_iff hlast).2 (by linarith))

/-- A step is at most one part in `2 ^ 52` of what is neither below its magnitude nor below
`2 ^ 52`. -/
theorem step_mul_le (hr : units r ≤ t) (ht : 2 ^ 52 ≤ t) : step r * 2 ^ 52 ≤ t := by
  obtain ⟨q, k, rfl, hq, hk⟩ := exists_significand r
  rw [step_significand hq hk]
  rcases hk with rfl | hk
  · simpa using ht
  · rw [units_significand hq.le (.inr hk)] at hr
    have hle : 2 ^ k * 2 ^ 52 ≤ q * 2 ^ k := by
      rw [Nat.mul_comm]
      exact Nat.mul_le_mul_right _ hk
    exact le_trans (by exact_mod_cast hle) hr

/-- Rounding changes a number by at most one part in `2 ^ 53`. -/
theorem IsNearest.abs_sub_le (h : IsNearest t r) (ht : 2 ^ 52 ≤ t) :
    |t - units r| ≤ t / 2 ^ 53 := by
  rcases le_total (units r : ℚ) t with hle | hle
  · -- The magnitude after it is not nearer.
    have hup : (units (r + 1) : ℚ) = units r + step r := by exact_mod_cast units_succ r
    have hmiddle : ¬ units r + units (r + 1) < 2 * t := by
      rw [← abs_sub_lt_abs_sub_iff' (units_cast_lt (Nat.lt_succ_self r))]
      exact (h.le (r + 1)).not_gt
    have hstep := step_mul_le hle ht
    rw [abs_of_nonneg (by linarith)]
    linarith
  · -- Neither is the magnitude before it.
    have hpos : 0 < r := by
      refine Nat.pos_of_ne_zero fun hzero => ?_
      rw [hzero, units_zero, Nat.cast_zero] at hle
      linarith
    obtain ⟨p, rfl⟩ : ∃ p, r = p + 1 := ⟨r - 1, by omega⟩
    have hup : (units (p + 1) : ℚ) = units p + step p := by exact_mod_cast units_succ p
    have hpos' : (0 : ℚ) < step p := by exact_mod_cast step_pos p
    have hmiddle : ¬ 2 * t < units p + units (p + 1) := by
      rw [← abs_sub_lt_abs_sub_iff (units_cast_lt (Nat.lt_succ_self p))]
      exact (h.le p).not_gt
    have hstep := step_mul_le (r := p) (t := t) (by linarith) ht
    rw [abs_of_nonpos (by linarith)]
    linarith

/-! ## Several roundings -/

/-- A finite number that differs from the positive number `v` by at most `n` parts in `2 ^ 52`. -/
structure Approximates (x : Binary64) (v : ℚ) (n : Nat) : Prop where
  /-- It is finite, and its sign is positive. -/
  exists_rank : ∃ rank, x = finite false rank
  /-- It is as near as that. -/
  abs_sub_le : |x.value - v| ≤ n / 2 ^ 52 * v

/-- The value of a finite number with a positive sign. -/
theorem value_finite_false (rank : Fin magnitudes) :
    (finite false rank).value = units rank / unitsPerOne :=
  (value_finite false rank).trans (if_neg Bool.false_ne_true)

/-- The value of a finite number is below the limit. -/
theorem value_lt_overflowLimit (rank : Fin magnitudes) :
    (finite false rank).value < overflowLimit := by
  rw [value_finite_false, div_lt_iff₀ unitsPerOne_cast_pos, ← (isNearest_units rank).lt_magnitudes_iff]
  exact rank.isLt

/-- Rounding a quotient adds one part to its error. -/
theorem approximates_ofUnits (hden : 0 < den) (hnum : (num / den : ℚ) = t * unitsPerOne)
    (hv : 1 ≤ v) (hn : n ≤ 2 ^ 51) (ht : |t - v| ≤ n / 2 ^ 52 * v) (hlt : t < overflowLimit) :
    (ofUnits false num den).Approximates v (n + 1) := by
  have hnearest := isNearest_nearestRank num hden
  rw [hnum] at hnearest
  generalize hr : nearestRank num den = r at hnearest
  have hpos := unitsPerOne_cast_pos
  have hbound : r < magnitudes := hnearest.lt_magnitudes_iff.2 (mul_lt_mul_of_pos_right hlt hpos)
  rw [ofUnits, hr, ofRank, dif_pos hbound]
  refine ⟨⟨_, rfl⟩, ?_⟩
  -- The error so far is at most one half of the number.
  have hn' : (n / 2 ^ 52 : ℚ) ≤ 1 / 2 := by
    have : (n : ℚ) ≤ 2 ^ 51 := by exact_mod_cast hn
    linarith
  have hhalf : (n / 2 ^ 52 : ℚ) * v ≤ 1 / 2 * v := mul_le_mul_of_nonneg_right hn' (by linarith)
  obtain ⟨hlow, hhigh⟩ := abs_le.1 ht
  have hlarge : 2 ^ 52 ≤ t * unitsPerOne := by
    have hunits : (2 ^ 53 : ℚ) ≤ unitsPerOne := by
      have : 2 ^ 53 ≤ unitsPerOne := by decide +kernel
      exact_mod_cast this
    calc (2 ^ 52 : ℚ) = 1 / 2 * 2 ^ 53 := by norm_num
      _ ≤ t * unitsPerOne := mul_le_mul (by linarith) hunits (by norm_num) (by linarith)
  have hround : |t - units r / unitsPerOne| ≤ t / 2 ^ 53 := by
    rw [abs_sub_units_div, div_le_iff₀ hpos, div_mul_eq_mul_div]
    exact hnearest.abs_sub_le hlarge
  rw [value_finite_false]
  calc |(units r / unitsPerOne : ℚ) - v| ≤ |units r / unitsPerOne - t| + |t - v| := abs_sub_le _ _ _
    _ ≤ t / 2 ^ 53 + n / 2 ^ 52 * v := by
      rw [abs_sub_comm]
      exact add_le_add hround ht
    _ ≤ 2 * v / 2 ^ 53 + n / 2 ^ 52 * v := by linarith
    _ = ((n + 1 : ℕ) : ℚ) / 2 ^ 52 * v := by push_cast; ring

/-- From the limit on a quotient is rounded to an infinity. -/
theorem ofUnits_eq_infinite (hden : 0 < den) (hnum : (num / den : ℚ) = t * unitsPerOne)
    (hle : overflowLimit ≤ t) : ofUnits negative num den = infinite negative := by
  have hnearest := isNearest_nearestRank num hden
  rw [hnum] at hnearest
  refine dif_neg fun hbound => ?_
  have hlt := lt_of_mul_lt_mul_right (hnearest.lt_magnitudes_iff.1 hbound) unitsPerOne_cast_pos.le
  exact hlt.not_ge hle

/-- The exact product of a magnitude and a natural number. -/
theorem units_mul_div (rank : Fin magnitudes) (h : units r = a * unitsPerOne) :
    ((units rank * units r : ℕ) / unitsPerOne : ℚ) = (finite false rank).value * a * unitsPerOne := by
  have hne := unitsPerOne_cast_pos.ne'
  rw [h, value_finite_false]
  push_cast
  field_simp

/-- A product that is below the limit. -/
theorem Approximates.mul_ofNat (h : x.Approximates v n) (hv : 1 ≤ v) (hn : n ≤ 2 ^ 51)
    (hpos : 0 < a) (ha : a ≤ 2 ^ 53) (hlt : x.value * a < overflowLimit) :
    (x * ofNat a).Approximates (v * a) (n + 1) := by
  obtain ⟨rank, rfl⟩ := h.exists_rank
  obtain ⟨y, hy, hunits⟩ := exists_ofNat_eq ha
  rw [hy, finite_mul_finite]
  have ha' : (1 : ℚ) ≤ a := by exact_mod_cast hpos
  refine approximates_ofUnits unitsPerOne_pos (units_mul_div rank hunits)
    (one_le_mul_of_one_le_of_one_le hv ha') hn ?_ hlt
  rw [← sub_mul, abs_mul, abs_of_pos (zero_lt_one.trans_le ha'), ← mul_assoc]
  exact mul_le_mul_of_nonneg_right h.abs_sub_le (by linarith)

/-- A product that is not. -/
theorem Approximates.mul_ofNat_eq_infinite (h : x.Approximates v n) (ha : a ≤ 2 ^ 53)
    (hle : overflowLimit ≤ x.value * a) : x * ofNat a = infinite false := by
  obtain ⟨rank, rfl⟩ := h.exists_rank
  obtain ⟨y, hy, hunits⟩ := exists_ofNat_eq ha
  rw [hy, finite_mul_finite]
  exact ofUnits_eq_infinite unitsPerOne_pos (units_mul_div rank hunits) hle

/-- A quotient that is not below one. -/
theorem Approximates.div_ofNat (h : x.Approximates v n) (hn : n ≤ 2 ^ 51) (hpos : 0 < a)
    (ha : a ≤ 2 ^ 53) (hv : a ≤ v) : (x / ofNat a).Approximates (v / a) (n + 1) := by
  obtain ⟨rank, rfl⟩ := h.exists_rank
  obtain ⟨y, hy, hunits⟩ := exists_ofNat_eq ha
  have ha' : (1 : ℚ) ≤ a := by exact_mod_cast hpos
  have hapos : (0 : ℚ) < a := by linarith
  have hne := unitsPerOne_cast_pos.ne'
  have hden : 0 < units y := hunits ▸ Nat.mul_pos hpos unitsPerOne_pos
  have hquotient : ((units rank * unitsPerOne : ℕ) / (units y : ℕ) : ℚ) =
      (finite false rank).value / a * unitsPerOne := by
    rw [hunits, value_finite_false]
    push_cast
    field_simp
  have hvalue : 0 ≤ (finite false rank).value := by
    rw [value_finite_false]
    exact div_nonneg (Nat.cast_nonneg _) (Nat.cast_nonneg _)
  rw [hy, finite_div_finite rank (ne_zero_of_units hunits hpos)]
  refine approximates_ofUnits hden hquotient ((one_le_div hapos).2 hv) hn ?_ ?_
  · rw [← sub_div, abs_div, abs_of_pos hapos, mul_div_assoc']
    exact div_le_div_of_nonneg_right h.abs_sub_le hapos.le
  · exact (div_le_self hvalue ha').trans_lt (value_lt_overflowLimit rank)

end Calculator.Binary64
