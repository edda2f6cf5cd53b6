import Mathlib.Data.Nat.Factorial.Basic
import Calculator.Proofs.Counting.Products

/-!
# Exact counts

As long as no product in it is larger than `2 ^ 53`, the computation of a binomial coefficient is
exact: after step `k` it holds the number of ways to choose `k` of `rest + k`
(`choose_eq_ofNat`). The last product is the largest, so it alone decides. Numbers of arrangements
are products of consecutive numbers, which are exact up to `2 ^ 53` (`productFrom_eq_ofNat`).
-/

namespace Calculator.Counting

variable {rest first k : Nat}

/-- After step `k` a binomial coefficient is exact if its dividends are at most `2 ^ 53`. -/
theorem choose_eq_ofNat (h : dividend rest k ≤ 2 ^ 53) :
    choose rest 1 1 k = .ofNat ((rest + k).choose k) := by
  induction k with
  | zero => rw [Nat.choose_zero_right]; rfl
  | succ k ih =>
    have hk : dividend rest k ≤ 2 ^ 53 := (dividend_mono rest (Nat.le_succ k)).trans h
    have hpos : 0 < (rest + k).choose k := Nat.choose_pos (Nat.le_add_left k rest)
    rw [dividend_succ] at h
    have hfactor : rest + (k + 1) ≤ 2 ^ 53 := (Nat.le_mul_of_pos_left _ hpos).trans h
    have hcoefficient : (rest + k).choose k ≤ 2 ^ 53 :=
      (Nat.le_mul_of_pos_right _ (by omega)).trans h
    -- The product is the dividend, and so a multiple of the divisor.
    have hproduct : (rest + k).choose k * (rest + (k + 1)) =
        (rest + (k + 1)).choose (k + 1) * (k + 1) := by
      rw [← dividend_succ, dividend, Nat.mul_comm]
    rw [choose_succ Nat.one_pos (by omega), ih hk, chooseStep, Nat.add_comm 1 k,
      Binary64.ofNat_mul_ofNat hcoefficient hfactor h, hproduct]
    exact Binary64.ofNat_mul_div_ofNat (Nat.succ_pos k) (by omega) (hproduct ▸ h)

/-- A coefficient is not larger than its dividend, if there is one. -/
theorem choose_le_of_dividend (h : dividend rest k ≤ 2 ^ 53) : (rest + k).choose k ≤ 2 ^ 53 := by
  rcases Nat.eq_zero_or_pos k with rfl | hpos
  · rw [Nat.choose_zero_right]
    decide
  · exact (Nat.le_mul_of_pos_left _ hpos).trans h

/-- A product of consecutive numbers is exact if it is at most `2 ^ 53`. -/
theorem productFrom_eq_ofNat (hfirst : 0 < first) (h : first.ascFactorial k ≤ 2 ^ 53) :
    productFrom 1 first k = .ofNat (first.ascFactorial k) := by
  induction k with
  | zero => rfl
  | succ k ih =>
    rw [Nat.ascFactorial_succ, Nat.mul_comm] at h ⊢
    have hpos : 0 < first.ascFactorial k := by
      obtain ⟨n, rfl⟩ : ∃ n, first = n + 1 := ⟨first - 1, by omega⟩
      exact Nat.ascFactorial_pos n k
    have hproduct : first.ascFactorial k ≤ 2 ^ 53 := (Nat.le_mul_of_pos_right _ (by omega)).trans h
    have hfactor : first + k ≤ 2 ^ 53 := (Nat.le_mul_of_pos_left _ hpos).trans h
    rw [productFrom_succ hfirst hfactor, ih hproduct]
    exact Binary64.ofNat_mul_ofNat hproduct hfactor h

/-- The coefficient that is formed is the one that is asked for. -/
theorem choose_min_eq {n r : Nat} (h : r ≤ n) :
    (n - min r (n - r) + min r (n - r)).choose (min r (n - r)) = n.choose r := by
  rw [Nat.sub_add_cancel (by omega)]
  rcases Nat.le_total r (n - r) with hle | hle
  · rw [min_eq_left hle]
  · rw [min_eq_right hle, Nat.choose_symm h]

/-- A coefficient is formed with the smaller one of the numbers that are chosen and left. -/
theorem combination_eq_choose {n r : Nat} (h : r ≤ n) :
    combination n r = choose (n - min r (n - r)) 1 1 (min r (n - r)) :=
  if_neg (Nat.not_lt.2 h)

/-- The dividend of the last step. -/
theorem dividend_min {n r : Nat} (h : r ≤ n) :
    dividend (n - min r (n - r)) (min r (n - r)) = min r (n - r) * n.choose r := by
  rw [dividend, choose_min_eq h]

/-- The number of ways to choose `r` of `n` things is exact. -/
structure ChoosesExactly (n r : Nat) : Prop where
  /-- The result is exact. -/
  result : (combination n r).IsExactly (n.choose r)
  /-- It is exact after every step. -/
  step : ∀ k ≤ min r (n - r),
    (choose (n - min r (n - r)) 1 1 k).IsExactly ((n - min r (n - r) + k).choose k)
  /-- No division leaves a remainder. -/
  dvd : ∀ k < min r (n - r),
    k + 1 ∣ (n - min r (n - r) + k).choose k * (n - min r (n - r) + (k + 1))

/-- A number of ways to choose is exact if its last dividend is at most `2 ^ 53`. -/
theorem choosesExactly_of_le {n r : Nat} (hle : r ≤ n)
    (h : min r (n - r) * n.choose r ≤ 2 ^ 53) : ChoosesExactly n r := by
  have hresult := combination_eq_choose hle
  have hcoefficient := choose_min_eq hle
  rw [← dividend_min hle] at h
  have hstep : ∀ k ≤ min r (n - r),
      (choose (n - min r (n - r)) 1 1 k).IsExactly ((n - min r (n - r) + k).choose k) := by
    intro k hk
    -- The last dividend is the largest.
    have hdividend := (dividend_mono (n - min r (n - r)) hk).trans h
    rw [choose_eq_ofNat hdividend]
    exact Binary64.isExactly_ofNat (choose_le_of_dividend hdividend)
  refine ⟨?_, hstep, fun k _ => ?_⟩
  · rw [hresult, ← hcoefficient]
    exact hstep _ le_rfl
  · rw [← dividend_succ]
    exact Nat.dvd_mul_right _ _

/-- A number of ways to arrange is exact if it is at most `2 ^ 53`. -/
theorem permutation_isExactly {n r : Nat} (hle : r ≤ n)
    (h : n.factorial / (n - r).factorial ≤ 2 ^ 53) :
    (permutation n r).IsExactly (n.factorial / (n - r).factorial) := by
  have hcount : (n - r + 1).ascFactorial r = n.factorial / (n - r).factorial := by
    rw [Nat.ascFactorial_eq_div, Nat.sub_add_cancel hle]
  have hproduct : permutation n r = productFrom 1 (n - r + 1) r := if_neg (Nat.not_lt.2 hle)
  rw [← hcount] at h ⊢
  rw [hproduct, productFrom_eq_ofNat (Nat.succ_pos _) h]
  exact Binary64.isExactly_ofNat h

/-- **Exact counts.** A number of ways to choose is exact if its last dividend is at most `2 ^ 53`, and
then it is exact after every step and no division leaves a remainder. A number of ways to arrange is
exact if it is at most `2 ^ 53`. There is no way to choose or arrange more things than there are. On
words all factors are found without an overflow or a difference below zero, but for the first one of
no arrangement of `2 ^ 32 - 1` things. -/
theorem counting_exact (n r : BitVec 32) :
    (r.toNat ≤ n.toNat →
      max 1 (min r.toNat (n.toNat - r.toNat) * n.toNat.choose r.toNat) ≤ 2 ^ 53 →
        ChoosesExactly n.toNat r.toNat) ∧
      (r.toNat ≤ n.toNat → ¬ (n.toNat = 4294967295 ∧ r.toNat = 0) →
        n.toNat.factorial / (n.toNat - r.toNat).factorial ≤ 2 ^ 53 →
          (permutation n.toNat r.toNat).IsExactly
            (n.toNat.factorial / (n.toNat - r.toNat).factorial)) ∧
      (n.toNat < r.toNat →
        combination n.toNat r.toNat = 0 ∧ permutation n.toNat r.toNat = 0) ∧
      Words.combination? n r = some (combination n.toNat r.toNat) ∧
      Words.permutation? n r =
        if n.toNat = 4294967295 ∧ r.toNat = 0 then none
        else some (permutation n.toNat r.toNat) := by
  refine ⟨fun hle hmax => ?_, fun hle _ hcount => permutation_isExactly hle hcount, fun hlt => ?_,
    combination?_eq n r, permutation?_eq n r⟩
  · exact choosesExactly_of_le hle ((le_max_right _ _).trans hmax)
  · exact ⟨if_pos hlt, if_pos hlt⟩

end Calculator.Counting
