import Mathlib.Algebra.Order.Field.Basic
import Mathlib.Algebra.Order.Field.Rat
import Mathlib.Data.Rat.Cast.Order
import Mathlib.Tactic.Linarith
import Calculator.Proofs.Binary64.Units
import Calculator.Proofs.Rounding

/-!
# The nearest magnitude

`IsNearest x r` says that no magnitude is nearer to `x` units than that of the rank `r`, and that
`r` is even where another magnitude is as near. There is only one such rank
(`IsNearest.unique`), and `nearestRank` finds it for every quotient (`isNearest_nearestRank`), so
that it depends on the value of the quotient alone.

It is enough to compare `x` with the middle between the magnitude and each of its two neighbours
(`isNearest_of_middle`). Where the significand is not the least one, both middles are half a step
away, and these are the bounds of the nearest integer.
-/

namespace Calculator.Binary64

variable {x y : ℚ} {q r s k num den : Nat}

/-- The magnitude of this rank is nearest to `x` units; of two equally near, the rank is even. -/
structure IsNearest (x : ℚ) (r : Nat) : Prop where
  /-- No other magnitude is nearer. -/
  le (s : Nat) : |x - units r| ≤ |x - units s|
  /-- Of two equally near magnitudes the rank is even. -/
  even (s : Nat) : s ≠ r → |x - units s| = |x - units r| → r % 2 = 0

/-- Smaller ranks have smaller magnitudes. -/
theorem units_cast_lt (h : r < s) : (units r : ℚ) < units s := by
  exact_mod_cast units_strictMono h

/-- Magnitudes grow with their ranks. -/
theorem units_cast_le (h : r ≤ s) : (units r : ℚ) ≤ units s := by
  exact_mod_cast units_strictMono.monotone h

/-- Of two points the lower one is nearer to what lies below the middle between them. -/
theorem abs_sub_lt_abs_sub_iff {a b : ℚ} (hab : a < b) :
    |x - a| < |x - b| ↔ 2 * x < a + b := by
  have hprod : (x - b) ^ 2 - (x - a) ^ 2 = (b - a) * (a + b - 2 * x) := by ring
  rw [← sq_lt_sq, ← sub_pos, hprod, mul_pos_iff_of_pos_left (sub_pos.2 hab), sub_pos]

/-- The higher one is nearer to what lies above it. -/
theorem abs_sub_lt_abs_sub_iff' {a b : ℚ} (hab : a < b) :
    |x - b| < |x - a| ↔ a + b < 2 * x := by
  have hprod : (x - a) ^ 2 - (x - b) ^ 2 = (b - a) * (2 * x - (a + b)) := by ring
  rw [← sq_lt_sq, ← sub_pos, hprod, mul_pos_iff_of_pos_left (sub_pos.2 hab), sub_pos]

/-- Two ranks that are nearest are the same. -/
theorem IsNearest.unique (h : IsNearest x r) (h' : IsNearest x s) : r = s := by
  -- Two different ranks would be equally near, and so both even.
  by_contra hne
  wlog hlt : r < s generalizing r s
  · exact this h' h (Ne.symm hne) (by omega)
  have hdist : |x - units s| = |x - units r| := le_antisymm (h'.le r) (h.le s)
  have hr : r % 2 = 0 := h.even s (Ne.symm hne) hdist
  have hs : s % 2 = 0 := h'.even r hne hdist.symm
  have hmid : units r + units s ≤ 2 * x := by
    rw [← not_lt, ← abs_sub_lt_abs_sub_iff (units_cast_lt hlt), hdist]
    exact lt_irrefl _
  -- Two even ranks have another one between them, and that is nearer.
  have hhigh : (units (r + 1) : ℚ) < units s := units_cast_lt (by omega)
  have hnear : |x - units (r + 1)| < |x - units r| :=
    (abs_sub_lt_abs_sub_iff' (units_cast_lt (Nat.lt_succ_self r))).2 (by linarith)
  exact (h.le (r + 1)).not_gt hnear

/-- What is at least as large has a rank at least as large. -/
theorem IsNearest.mono (h : IsNearest x r) (h' : IsNearest y s) (hxy : x ≤ y) : r ≤ s := by
  by_contra hlt
  have hunits : (units s : ℚ) < units r := units_cast_lt (by omega)
  rcases eq_or_lt_of_le hxy with rfl | hxy
  · exact hlt (h.unique h').le
  · -- The middle between the magnitudes is at most `x` and at least `y`.
    have hx : ¬ 2 * x < units s + units r := by
      rw [← abs_sub_lt_abs_sub_iff hunits]
      exact (h.le s).not_gt
    have hy : ¬ units s + units r < 2 * y := by
      rw [← abs_sub_lt_abs_sub_iff' hunits]
      exact (h'.le r).not_gt
    linarith

/-- A rank is nearest to what lies between the middles on both sides of its magnitude, where a
middle belongs to the even rank. -/
theorem isNearest_of_middle (hhigh : 2 * x ≤ units r + units (r + 1))
    (hhigh' : 2 * x = units r + units (r + 1) → r % 2 = 0)
    (hlow : ∀ p, p + 1 = r → units p + units r ≤ 2 * x)
    (hlow' : ∀ p, p + 1 = r → units p + units r = 2 * x → r % 2 = 0) : IsNearest x r := by
  have key : ∀ s, s ≠ r → |x - units r| < |x - units s| ∨
      |x - units r| ≤ |x - units s| ∧ r % 2 = 0 := by
    intro s hne
    -- Every lower magnitude is at most the one below, and every higher one at least the one above.
    rcases Nat.lt_or_gt_of_ne hne with hlt | hgt
    · obtain ⟨p, rfl⟩ : ∃ p, p + 1 = r := ⟨r - 1, by omega⟩
      have hs : (units s : ℚ) ≤ units p := units_cast_le (by omega)
      have hmid := hlow p rfl
      rcases eq_or_lt_of_le (show (units s + units (p + 1) : ℚ) ≤ 2 * x by linarith) with h | h
      · refine .inr ⟨?_, hlow' p rfl (by linarith)⟩
        rw [← not_lt, abs_sub_lt_abs_sub_iff (units_cast_lt hlt), h]
        exact lt_irrefl _
      · exact .inl ((abs_sub_lt_abs_sub_iff' (units_cast_lt hlt)).2 h)
    · have hs : (units (r + 1) : ℚ) ≤ units s := units_cast_le (by omega)
      rcases eq_or_lt_of_le (show (2 * x : ℚ) ≤ units r + units s by linarith) with h | h
      · refine .inr ⟨?_, hhigh' (by linarith)⟩
        rw [← not_lt, abs_sub_lt_abs_sub_iff' (units_cast_lt hgt), h]
        exact lt_irrefl _
      · exact .inl ((abs_sub_lt_abs_sub_iff (units_cast_lt hgt)).2 h)
  refine ⟨fun s => ?_, fun s hne hdist => ?_⟩
  · by_cases hne : s = r
    · rw [hne]
    · rcases key s hne with h | h
      · exact h.le
      · exact h.1
  · rcases key s hne with h | h
    · exact absurd hdist.symm h.ne
    · exact h.2

/-- A significand and an exponent are nearest to what rounds to the significand in steps of the
exponent, if it is neither below the least significand nor above the greatest one. -/
theorem isNearest_significand (hq : q ≤ 2 ^ 53) (hk : k = 0 ∨ 2 ^ 52 ≤ q)
    (hhigh : 2 * x ≤ (2 * q + 1) * 2 ^ k) (hhigh' : 2 * x = (2 * q + 1) * 2 ^ k → q % 2 = 0)
    (hlow : (2 * q - 1) * 2 ^ k ≤ 2 * x) (hlow' : (2 * q - 1) * 2 ^ k = 2 * x → q % 2 = 0)
    (hmin : k = 0 ∨ 2 ^ 52 * 2 ^ k ≤ x) (hmax : x ≤ 2 ^ 53 * 2 ^ k) :
    IsNearest x (q + k * 2 ^ 52) := by
  have hunits : (units (q + k * 2 ^ 52) : ℚ) = q * 2 ^ k := by
    rw [units_significand hq hk]
    push_cast
    rfl
  have hpos : (0 : ℚ) < 2 ^ k := by positivity
  have hparity : (q + k * 2 ^ 52) % 2 = q % 2 := by omega
  -- Above the greatest significand the step is wider than `2 ^ k`.
  have hup : q < 2 ^ 53 ∧ (units (q + k * 2 ^ 52 + 1) : ℚ) = (q + 1) * 2 ^ k ∨
      2 * x < units (q + k * 2 ^ 52) + units (q + k * 2 ^ 52 + 1) := by
    rcases Nat.lt_or_ge q (2 ^ 53) with h | h
    · refine .inl ⟨h, ?_⟩
      rw [units_significand_succ h hk]
      push_cast
      rfl
    · have hq' : (q : ℚ) = 2 ^ 53 := by exact_mod_cast le_antisymm hq h
      have hlt : (units (q + k * 2 ^ 52) : ℚ) < units (q + k * 2 ^ 52 + 1) :=
        units_cast_lt (Nat.lt_succ_self _)
      rw [hq'] at hunits
      exact .inr (by linarith)
  -- Below the least one it is narrower.
  have hdown : ∀ p, p + 1 = q + k * 2 ^ 52 → (units p : ℚ) = (q - 1) * 2 ^ k ∨
      units p + units (q + k * 2 ^ 52) < 2 * x := by
    intro p hp
    by_cases hk' : 1 ≤ q ∧ (k = 0 ∨ 2 ^ 52 ≤ q - 1)
    · have hp' : p = q - 1 + k * 2 ^ 52 := by omega
      rw [hp', units_significand (by omega) hk'.2]
      push_cast [Nat.cast_sub hk'.1]
      exact .inl rfl
    · obtain rfl : q = 2 ^ 52 := by omega
      have hlt : (units p : ℚ) < units (2 ^ 52 + k * 2 ^ 52) := units_cast_lt (by omega)
      have hmin' : 2 ^ 52 * 2 ^ k ≤ x := hmin.resolve_left (by omega)
      push_cast at hunits
      exact .inr (by linarith)
  refine isNearest_of_middle ?_ ?_ ?_ ?_
  · rcases hup with ⟨-, h⟩ | h
    · rw [hunits, h]
      linarith
    · exact h.le
  · intro heq
    rcases hup with ⟨-, h⟩ | h
    · rw [hunits, h] at heq
      rw [hparity]
      exact hhigh' (by linarith)
    · exact absurd heq h.ne
  · intro p hp
    rcases hdown p hp with h | h
    · rw [hunits, h]
      linarith
    · exact h.le
  · intro p hp heq
    rcases hdown p hp with h | h
    · rw [hunits, h] at heq
      rw [hparity]
      exact hlow' (by linarith)
    · exact absurd heq h.ne

/-- The exponent of a quotient leaves a significand of 53 digits at most, and of no fewer where the
exponent is not zero. -/
theorem log2_bounds (n : Nat) :
    n < 2 ^ 53 * 2 ^ (n.log2 - 52) ∧ (n.log2 - 52 = 0 ∨ 2 ^ 52 * 2 ^ (n.log2 - 52) ≤ n) := by
  constructor
  · have hlt : n < 2 ^ (n.log2 + 1) := Nat.lt_log2_self
    have hle : 2 ^ (n.log2 + 1) ≤ 2 ^ (53 + (n.log2 - 52)) :=
      Nat.pow_le_pow_right (by decide) (by omega)
    rw [← Nat.pow_add]
    omega
  · by_cases h : n.log2 - 52 = 0
    · exact .inl h
    · have hne : n ≠ 0 := by
        rintro rfl
        exact h rfl
      have hle : 2 ^ n.log2 ≤ n := Nat.log2_self_le hne
      rw [← Nat.pow_add, show 52 + (n.log2 - 52) = n.log2 by omega]
      exact .inr hle

/-- `nearestRank` finds the rank that is nearest to a quotient. -/
theorem isNearest_nearestRank (num : Nat) (hden : 0 < den) :
    IsNearest (num / den) (nearestRank num den) := by
  obtain ⟨hmax, hmin⟩ := log2_bounds (num / den)
  unfold nearestRank
  dsimp only
  generalize (num / den).log2 - 52 = k at hmax hmin ⊢
  have hden' : (0 : ℚ) < den := by exact_mod_cast hden
  have hstep : 0 < den * 2 ^ k := Nat.mul_pos hden (Nat.two_pow_pos k)
  obtain ⟨hle, hle'⟩ := le_roundHalfEven_mul num hstep
  obtain ⟨hge, hge'⟩ := roundHalfEven_mul_le num (den * 2 ^ k)
  generalize roundHalfEven num (den * 2 ^ k) = q at hle hle' hge hge' ⊢
  have hx : (num / den : ℚ) * den = num := div_mul_cancel₀ _ hden'.ne'
  have hnum : num < 2 ^ 53 * (den * 2 ^ k) := by
    have h := (Nat.div_lt_iff_lt_mul hden).1 hmax
    calc num < 2 ^ 53 * 2 ^ k * den := h
      _ = 2 ^ 53 * (den * 2 ^ k) := by ring
  have hnum' : k = 0 ∨ 2 ^ 52 * (den * 2 ^ k) ≤ num := by
    refine hmin.imp_right fun h => ?_
    calc 2 ^ 52 * (den * 2 ^ k) = 2 ^ 52 * 2 ^ k * den := by ring
      _ ≤ num := (Nat.le_div_iff_mul_le hden).1 h
  generalize (num / den : ℚ) = x at hx ⊢
  -- The rounded quotient is a significand that may have just overflowed.
  refine isNearest_significand ?_ ?_ ?_ ?_ ?_ ?_ ?_ ?_
  · by_contra h
    have : (2 ^ 53 + 1) * (den * 2 ^ k) ≤ q * (den * 2 ^ k) := Nat.mul_le_mul_right _ (by omega)
    omega
  · refine hnum'.imp_right fun h => ?_
    by_contra hlt
    have : (q + 1) * (den * 2 ^ k) ≤ 2 ^ 52 * (den * 2 ^ k) := Nat.mul_le_mul_right _ (by omega)
    rw [Nat.succ_mul] at this
    omega
  -- The other bounds are those of the nearest integer, divided by the divisor.
  · have h : (2 * num : ℚ) ≤ 2 * (q * (den * 2 ^ k)) + den * 2 ^ k := by exact_mod_cast hle
    rw [← hx] at h
    exact le_of_mul_le_mul_right (by linarith) hden'
  · intro heq
    apply hle'
    have h : (2 * num : ℚ) = 2 * (q * (den * 2 ^ k)) + den * 2 ^ k := by
      calc (2 * num : ℚ) = 2 * x * den := by rw [← hx, mul_assoc]
        _ = 2 * (q * (den * 2 ^ k)) + den * 2 ^ k := by rw [heq]; ring
    exact_mod_cast h
  · have h : (2 * (q * (den * 2 ^ k)) : ℚ) ≤ 2 * num + den * 2 ^ k := by exact_mod_cast hge
    rw [← hx] at h
    exact le_of_mul_le_mul_right (by linarith) hden'
  · intro heq
    apply hge'
    have h : (2 * (q * (den * 2 ^ k)) : ℚ) = 2 * num + den * 2 ^ k := by
      calc (2 * (q * (den * 2 ^ k)) : ℚ) = (2 * q - 1) * 2 ^ k * den + den * 2 ^ k := by ring
        _ = 2 * num + den * 2 ^ k := by rw [heq, ← hx, mul_assoc]
    exact_mod_cast h
  · refine hnum'.imp_right fun h => ?_
    have h' : (2 ^ 52 * (den * 2 ^ k) : ℚ) ≤ num := by exact_mod_cast h
    rw [← hx] at h'
    exact le_of_mul_le_mul_right (by linarith) hden'
  · have h : (num : ℚ) ≤ 2 ^ 53 * (den * 2 ^ k) := by exact_mod_cast hnum.le
    rw [← hx] at h
    exact le_of_mul_le_mul_right (by linarith) hden'

/-- The rank nearest to a quotient is the one whose magnitude is. -/
theorem nearestRank_eq_iff (hden : 0 < den) :
    nearestRank num den = r ↔ IsNearest (num / den) r := by
  constructor
  · rintro rfl
    exact isNearest_nearestRank num hden
  · exact (isNearest_nearestRank num hden).unique

/-- What is nearer to the magnitude of a rank than half the step to each neighbour. -/
structure IsClose (x : ℚ) (r : Nat) : Prop where
  /-- It is less than half a step above. -/
  above : 2 * (x - units r) < step r
  /-- It is less than half the step from the magnitude before it below. -/
  below : ∀ p, p + 1 = r → 2 * (units r - x) < step p

/-- Every magnitude is close to itself. -/
theorem isClose_units (r : Nat) : IsClose (units r) r := by
  refine ⟨?_, fun p _ => ?_⟩
  · rw [sub_self, mul_zero]
    exact_mod_cast step_pos r
  · rw [sub_self, mul_zero]
    exact_mod_cast step_pos p

/-- What is close to a magnitude is nearer to it than to any other. -/
theorem IsClose.abs_sub_lt (h : IsClose x r) (hne : s ≠ r) : |x - units r| < |x - units s| := by
  rcases Nat.lt_or_gt_of_ne hne with hlt | hgt
  · obtain ⟨p, rfl⟩ : ∃ p, p + 1 = r := ⟨r - 1, by omega⟩
    have hdown : (units (p + 1) : ℚ) = units p + step p := by exact_mod_cast units_succ p
    have hs : (units s : ℚ) ≤ units p := units_cast_le (by omega)
    have hbelow := h.below p rfl
    exact (abs_sub_lt_abs_sub_iff' (units_cast_lt hlt)).2 (by linarith)
  · have hup : (units (r + 1) : ℚ) = units r + step r := by exact_mod_cast units_succ r
    have hs : (units (r + 1) : ℚ) ≤ units s := units_cast_le (by omega)
    have habove := h.above
    exact (abs_sub_lt_abs_sub_iff (units_cast_lt hgt)).2 (by linarith)

/-- A rank is nearest to what is close to its magnitude. -/
theorem IsClose.isNearest (h : IsClose x r) : IsNearest x r := by
  refine ⟨fun s => ?_, fun s hne hdist => absurd hdist (h.abs_sub_lt hne).ne'⟩
  by_cases hne : s = r
  · rw [hne]
  · exact (h.abs_sub_lt hne).le

/-- Every rank is nearest to its own magnitude. -/
theorem isNearest_units (r : Nat) : IsNearest (units r) r := (isClose_units r).isNearest

end Calculator.Binary64
