import Mathlib.Order.Monotone.Basic
import Mathlib.Tactic.Ring
import Calculator.Binary64.Basic

/-!
# The magnitudes in order

Every rank is `q + k * 2 ^ 52` with a significand `q` below `2 ^ 53` that is at least `2 ^ 52`
unless `k` is zero (`exists_significand`), and its magnitude is then `q * 2 ^ k` units
(`units_significand`). The next magnitude is one `step` of `2 ^ k` units larger, also where the
significand overflows. Magnitudes are therefore in the order of their ranks, and none is more than
`2 ^ 53` times the step that leads to it.
-/

namespace Calculator.Binary64

variable {q k r s : Nat}

/-- The units from the magnitude of a rank to the next one. -/
def step (rank : Nat) : Nat := 2 ^ (rank / 2 ^ 52 - 1)

/-- The step is positive. -/
theorem step_pos (rank : Nat) : 0 < step rank := Nat.two_pow_pos _

/-- A rank is a significand and an exponent. -/
theorem exists_significand (r : Nat) :
    ∃ q k, r = q + k * 2 ^ 52 ∧ q < 2 ^ 53 ∧ (k = 0 ∨ 2 ^ 52 ≤ q) := by
  by_cases h : r < 2 ^ 52
  · exact ⟨r, 0, by omega, by omega, .inl rfl⟩
  · refine ⟨2 ^ 52 + r % 2 ^ 52, r / 2 ^ 52 - 1, ?_, by omega, .inr (by omega)⟩
    have hr := Nat.div_add_mod r (2 ^ 52)
    have hk : 1 ≤ r / 2 ^ 52 := by omega
    rw [Nat.sub_mul]
    omega

/-- The magnitude of a significand and an exponent, also where the significand has just
overflowed. -/
theorem units_significand (hq : q ≤ 2 ^ 53) (hk : k = 0 ∨ 2 ^ 52 ≤ q) :
    units (q + k * 2 ^ 52) = q * 2 ^ k := by
  unfold units
  by_cases hlt : q + k * 2 ^ 52 < 2 ^ 52
  · obtain rfl : k = 0 := by omega
    rw [if_pos hlt]
    omega
  · rw [if_neg hlt]
    -- An overflow adds one to the exponent and leaves the least significand.
    rcases Nat.lt_or_ge q (2 ^ 53) with hq' | hq'
    · have hdiv : (q + k * 2 ^ 52) / 2 ^ 52 = k + 1 := by omega
      have hmod : (q + k * 2 ^ 52) % 2 ^ 52 = q - 2 ^ 52 := by omega
      rw [hdiv, hmod, Nat.add_sub_cancel, show 2 ^ 52 + (q - 2 ^ 52) = q by omega]
    · obtain rfl : q = 2 ^ 53 := by omega
      have hdiv : (2 ^ 53 + k * 2 ^ 52) / 2 ^ 52 = k + 2 := by omega
      have hmod : (2 ^ 53 + k * 2 ^ 52) % 2 ^ 52 = 0 := by omega
      rw [hdiv, hmod, show k + 2 - 1 = k + 1 by omega, Nat.pow_succ]
      omega

/-- The step of a significand and an exponent. -/
theorem step_significand (hq : q < 2 ^ 53) (hk : k = 0 ∨ 2 ^ 52 ≤ q) :
    step (q + k * 2 ^ 52) = 2 ^ k := by
  unfold step
  congr 1
  omega

/-- The magnitude after a significand and an exponent. -/
theorem units_significand_succ (hq : q < 2 ^ 53) (hk : k = 0 ∨ 2 ^ 52 ≤ q) :
    units (q + k * 2 ^ 52 + 1) = (q + 1) * 2 ^ k := by
  rw [Nat.add_right_comm]
  exact units_significand hq (hk.imp_right Nat.le_succ_of_le)

/-- The next magnitude is one step larger. -/
theorem units_succ (r : Nat) : units (r + 1) = units r + step r := by
  obtain ⟨q, k, rfl, hq, hk⟩ := exists_significand r
  rw [units_significand_succ hq hk, units_significand hq.le hk, step_significand hq hk,
    Nat.succ_mul]

/-- No magnitude is more than `2 ^ 53` times the step that leads to it. -/
theorem units_succ_le (r : Nat) : units (r + 1) ≤ 2 ^ 53 * step r := by
  obtain ⟨q, k, rfl, hq, hk⟩ := exists_significand r
  rw [units_significand_succ hq hk, step_significand hq hk]
  exact Nat.mul_le_mul_right _ hq

/-- Larger ranks have larger magnitudes. -/
theorem units_strictMono : StrictMono units := by
  refine strictMono_nat_of_lt_succ fun r => ?_
  rw [units_succ]
  exact Nat.lt_add_of_pos_right (step_pos r)

/-- Rank 0 is zero. -/
@[simp] theorem units_zero : units 0 = 0 := rfl

/-- Every other magnitude is positive. -/
theorem units_pos (hr : 0 < r) : 0 < units r := by
  rw [← units_zero]
  exact units_strictMono hr

/-- There are units in one. -/
theorem unitsPerOne_pos : 0 < unitsPerOne := by decide +kernel

end Calculator.Binary64
