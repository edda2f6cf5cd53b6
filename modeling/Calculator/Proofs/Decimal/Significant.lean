import Mathlib.Data.Int.Log
import Mathlib.Data.Rat.Floor
import Calculator.Proofs.Decimal.Plain
import Calculator.Proofs.Decimal.Value

/-!
# Rounding to significant digits

`nearestEven` rounds a rational number to an integer, `roundAt` to a multiple of a power of ten, and
`toSignificant` to the multiples that leave so many significant digits. No other number with as many
digits is nearer (`abs_sub_toSignificant_le`). Rounding can carry into a new leading digit. Then the
digits end one place further to the left, but rounding there instead gives the same number
(`roundAt_log_toSignificant`), so a number may be rounded first for its exponent and once more for
its digits.

`scientificParts` and `fixedPoint` write numbers rounded in these two ways.
-/

namespace Calculator

variable {v x : ℚ} {n e k : ℤ} {num den p places : Nat}

/-! ## The nearest integer -/

/-- The integer nearest to a number, the even one of two that are equally near. -/
def nearestEven (x : ℚ) : ℤ :=
  if Int.fract x < 1 / 2 then ⌊x⌋
  else if 1 / 2 < Int.fract x then ⌊x⌋ + 1
  else ⌊x⌋ + ⌊x⌋ % 2

/-- The nearest integer is at most one half away. -/
theorem abs_sub_nearestEven_le (x : ℚ) : |x - nearestEven x| ≤ 1 / 2 := by
  have hsum : (⌊x⌋ : ℚ) + Int.fract x = x := Int.floor_add_fract x
  have hnonneg : 0 ≤ Int.fract x := Int.fract_nonneg x
  have hlt : Int.fract x < 1 := Int.fract_lt_one x
  unfold nearestEven
  split_ifs with hlow hhigh
  · rw [abs_le]
    constructor <;> linarith
  · rw [abs_le]
    push_cast
    constructor <;> linarith
  · -- Halfway, both neighbours are one half away.
    have hhalf : Int.fract x = 1 / 2 := by linarith
    rcases Int.emod_two_eq_zero_or_one ⌊x⌋ with heven | hodd
    · rw [heven, abs_le]
      push_cast
      constructor <;> linarith
    · rw [hodd, abs_le]
      push_cast
      constructor <;> linarith

/-- An integer that is less than one half away is the nearest. -/
theorem nearestEven_eq (h : |x - n| < 1 / 2) : nearestEven x = n := by
  have hle := abs_sub_nearestEven_le x
  rw [abs_le] at hle
  rw [abs_lt] at h
  have hlow : (nearestEven x : ℚ) < n + 1 := by linarith
  have hhigh : (n : ℚ) < nearestEven x + 1 := by linarith
  have hlow' : nearestEven x < n + 1 := by exact_mod_cast hlow
  have hhigh' : n < nearestEven x + 1 := by exact_mod_cast hhigh
  omega

/-- What is not below an integer is not rounded to less. -/
theorem le_nearestEven (h : (n : ℚ) ≤ x) : n ≤ nearestEven x := by
  have hle := abs_sub_nearestEven_le x
  rw [abs_le] at hle
  have hlt : (n : ℚ) < nearestEven x + 1 := by linarith
  have hlt' : n < nearestEven x + 1 := by exact_mod_cast hlt
  omega

/-- What is not above an integer is not rounded to more. -/
theorem nearestEven_le (h : x ≤ n) : nearestEven x ≤ n := by
  have hle := abs_sub_nearestEven_le x
  rw [abs_le] at hle
  have hlt : (nearestEven x : ℚ) < n + 1 := by linarith
  have hlt' : nearestEven x < n + 1 := by exact_mod_cast hlt
  omega

/-- A quotient of natural numbers is rounded in the same way. -/
theorem nearestEven_div (num : Nat) (hden : 0 < den) :
    nearestEven (num / den) = roundHalfEven num den := by
  have hden' : (0 : ℚ) < den := by exact_mod_cast hden
  have hfloor : ⌊(num / den : ℚ)⌋ = (num / den : Nat) := Rat.floor_natCast_div_natCast num den
  have hfract : Int.fract (num / den : ℚ) = (num % den : Nat) / den :=
    Int.fract_div_natCast_eq_div_natCast_mod
  have hlow : ((num % den : Nat) / den : ℚ) < 1 / 2 ↔ 2 * (num % den) < den := by
    rw [div_lt_div_iff₀ hden' two_pos, one_mul, mul_comm]
    exact_mod_cast Iff.rfl
  have hhigh : (1 / 2 : ℚ) < (num % den : Nat) / den ↔ den < 2 * (num % den) := by
    rw [div_lt_div_iff₀ two_pos hden', one_mul, mul_comm]
    exact_mod_cast Iff.rfl
  unfold nearestEven roundHalfEven
  dsimp only
  rw [hfloor, hfract]
  simp only [hlow, hhigh]
  split_ifs <;> push_cast <;> rfl

/-! ## Multiples of powers of ten -/

/-- The multiple of `10 ^ k` that is nearest to a number, the even one of two that are equally
near. -/
def roundAt (k : ℤ) (v : ℚ) : ℚ := nearestEven (v / 10 ^ k) * 10 ^ k

/-- A number rounded to `p` significant digits, a half to the even neighbour. -/
def toSignificant (p : Nat) (v : ℚ) : ℚ := roundAt (Int.log 10 v + 1 - p) v

/-- Powers of ten enclose a number at its exponent. -/
theorem log_bounds (hv : 0 < v) :
    (10 : ℚ) ^ Int.log 10 v ≤ v ∧ v < 10 ^ (Int.log 10 v + 1) := by
  have hlow := Int.zpow_log_le_self (b := 10) (by decide) hv
  have hhigh := Int.lt_zpow_succ_log_self (b := 10) (by decide) v
  push_cast at hlow hhigh
  exact ⟨hlow, hhigh⟩

/-- They do so at no other exponent. -/
theorem log_eq (hlow : (10 : ℚ) ^ e ≤ v) (hhigh : v < 10 ^ (e + 1)) : Int.log 10 v = e := by
  have hv : 0 < v := lt_of_lt_of_le (by positivity) hlow
  have hle : e ≤ Int.log 10 v := by
    rw [← Int.zpow_le_iff_le_log (by decide) hv]
    exact_mod_cast hlow
  have hlt : Int.log 10 v < e + 1 := by
    rw [← Int.lt_zpow_iff_log_lt (by decide) hv]
    exact_mod_cast hhigh
  omega

/-- The exponent of the leading digit of a quotient is the exponent of its value. -/
theorem leadingExponent_eq_log (hnum : 0 < num) (hden : 0 < den) :
    Decimal.leadingExponent num den = Int.log 10 (num / den : ℚ) := by
  obtain ⟨hlow, hhigh⟩ := Decimal.leadingExponent_bounds hnum hden
  exact (log_eq hlow hhigh).symm

/-- Steps counted by a power of ten make a power of ten. -/
theorem cast_pow_mul (n : Nat) (k : ℤ) : ((10 ^ n : ℤ) : ℚ) * 10 ^ k = 10 ^ (n + k) := by
  push_cast
  rw [← zpow_natCast, ← zpow_add₀ (by norm_num)]

/-- A number with `p` significant digits is between two powers of ten when it is counted in steps of
its last digit, and it is not rounded beyond them. -/
theorem nearestEven_bounds (hp : 1 ≤ p) (hv : 0 < v) :
    10 ^ (p - 1) ≤ nearestEven (v / 10 ^ (Int.log 10 v + 1 - p)) ∧
      nearestEven (v / 10 ^ (Int.log 10 v + 1 - p)) ≤ 10 ^ p := by
  obtain ⟨hlow, hhigh⟩ := log_bounds hv
  have hstep : (0 : ℚ) < 10 ^ (Int.log 10 v + 1 - p) := by positivity
  have hfirst : ((p - 1 : Nat) : ℤ) + (Int.log 10 v + 1 - p) = Int.log 10 v := by omega
  constructor
  · refine le_nearestEven ?_
    rw [le_div_iff₀ hstep, cast_pow_mul, hfirst]
    exact hlow
  · refine nearestEven_le ?_
    rw [div_le_iff₀ hstep, cast_pow_mul, add_sub_cancel]
    exact hhigh.le

/-- Rounding to significant digits keeps the exponent or carries into a new leading digit, and then
the number is rounded to a power of ten. -/
theorem toSignificant_cases (hp : 1 ≤ p) (hv : 0 < v) :
    (nearestEven (v / 10 ^ (Int.log 10 v + 1 - p)) < 10 ^ p ∧
        Int.log 10 (toSignificant p v) = Int.log 10 v) ∨
      (nearestEven (v / 10 ^ (Int.log 10 v + 1 - p)) = 10 ^ p ∧
        Int.log 10 (toSignificant p v) = Int.log 10 v + 1 ∧
        toSignificant p v = 10 ^ (Int.log 10 v + 1)) := by
  obtain ⟨hlow, hhigh⟩ := nearestEven_bounds hp hv
  have hstep : (0 : ℚ) < 10 ^ (Int.log 10 v + 1 - p) := by positivity
  have hfirst : ((p - 1 : Nat) : ℤ) + (Int.log 10 v + 1 - p) = Int.log 10 v := by omega
  rcases hhigh.lt_or_eq with hlt | hcarry
  · refine .inl ⟨hlt, log_eq ?_ ?_⟩
    · have hmul := mul_le_mul_of_nonneg_right (Int.cast_le (R := ℚ).2 hlow) hstep.le
      rw [cast_pow_mul, hfirst] at hmul
      exact hmul
    · have hmul := mul_lt_mul_of_pos_right (Int.cast_lt (R := ℚ).2 hlt) hstep
      rw [cast_pow_mul, add_sub_cancel] at hmul
      exact hmul
  · have heq : toSignificant p v = 10 ^ (Int.log 10 v + 1) := by
      rw [toSignificant, roundAt, hcarry, cast_pow_mul, add_sub_cancel]
    refine .inr ⟨hcarry, ?_, heq⟩
    have hlog := Int.log_zpow (R := ℚ) (b := 10) (by decide) (Int.log 10 v + 1)
    rw [heq]
    exact_mod_cast hlog

/-- Rounding to significant digits does not give zero. -/
theorem toSignificant_pos (hp : 1 ≤ p) (hv : 0 < v) : 0 < toSignificant p v := by
  have hlow : (0 : ℤ) < nearestEven (v / 10 ^ (Int.log 10 v + 1 - p)) :=
    lt_of_lt_of_le (by positivity) (nearestEven_bounds hp hv).1
  have hlow' : (0 : ℚ) < nearestEven (v / 10 ^ (Int.log 10 v + 1 - p)) := by exact_mod_cast hlow
  unfold toSignificant roundAt
  positivity

/-- Rounding where the significant digits of the rounded number end gives the same number, although
they end one place further to the left after a carry. -/
theorem roundAt_log_toSignificant (hp : 1 ≤ p) (hv : 0 < v) :
    roundAt (Int.log 10 (toSignificant p v) + 1 - p) v = toSignificant p v := by
  rcases toSignificant_cases hp hv with ⟨-, hlog⟩ | ⟨hcarry, hlog, heq⟩
  · rw [hlog]
    rfl
  · -- The number is so near to the power of ten that it is nearest on the coarser grid, too.
    have hclose := abs_sub_nearestEven_le (v / 10 ^ (Int.log 10 v + 1 - p))
    rw [hcarry] at hclose
    have hcoarse : v / 10 ^ (Int.log 10 v + 1 + 1 - p) = v / 10 ^ (Int.log 10 v + 1 - p) / 10 := by
      rw [div_div, ← zpow_add_one₀ (by norm_num)]
      congr 2
      ring
    have hten : (10 ^ p : ℚ) = 10 ^ (p - 1) * 10 := by
      rw [← pow_succ, Nat.sub_add_cancel hp]
    have hnearest : nearestEven (v / 10 ^ (Int.log 10 v + 1 + 1 - p)) = 10 ^ (p - 1) := by
      refine nearestEven_eq ?_
      rw [hcoarse]
      push_cast at hclose ⊢
      rw [hten] at hclose
      rw [abs_le] at hclose
      rw [abs_lt]
      constructor <;> linarith
    rw [hlog, heq, roundAt, hnearest, cast_pow_mul]
    congr 1
    omega

/-- No multiple of `10 ^ k` is nearer to a number than the one that it is rounded to. -/
theorem abs_sub_roundAt_le (v : ℚ) (k n : ℤ) : |v - roundAt k v| ≤ |v - n * 10 ^ k| := by
  have hstep : (0 : ℚ) < 10 ^ k := by positivity
  have hscale (m : ℤ) : |v - m * 10 ^ k| = |v / 10 ^ k - m| * 10 ^ k := by
    rw [← abs_of_pos hstep, ← abs_mul, abs_of_pos hstep, sub_mul, div_mul_cancel₀ _ hstep.ne']
  rw [roundAt, hscale, hscale]
  refine mul_le_mul_of_nonneg_right ?_ hstep.le
  by_contra hnear
  rw [not_le] at hnear
  have hhalf := lt_of_lt_of_le hnear (abs_sub_nearestEven_le _)
  rw [nearestEven_eq hhalf] at hnear
  exact lt_irrefl _ hnear

/-- A number is rounded to a multiple of `10 ^ k` that is at most half a step away. -/
theorem abs_sub_roundAt_le_half (v : ℚ) (k : ℤ) : |v - roundAt k v| ≤ 10 ^ k / 2 := by
  have hstep : (0 : ℚ) < 10 ^ k := by positivity
  have hscale : v - roundAt k v = (v / 10 ^ k - nearestEven (v / 10 ^ k)) * 10 ^ k := by
    rw [roundAt, sub_mul, div_mul_cancel₀ _ hstep.ne']
  rw [hscale, abs_mul, abs_of_pos hstep]
  calc |v / 10 ^ k - nearestEven (v / 10 ^ k)| * 10 ^ k
      ≤ 1 / 2 * 10 ^ k := mul_le_mul_of_nonneg_right (abs_sub_nearestEven_le _) hstep.le
    _ = 10 ^ k / 2 := one_div_mul_eq_div 2 _

/-- No number with at most `p` significant digits is nearer than the one that a number is rounded
to, on whatever place its last digit stands. -/
theorem abs_sub_toSignificant_le (hp : 1 ≤ p) (hv : 0 < v) {m : Nat} (hm : m < 10 ^ p) (k : ℤ) :
    |v - toSignificant p v| ≤ |v - m * 10 ^ k| := by
  obtain ⟨hlow, -⟩ := log_bounds hv
  rcases le_or_gt (Int.log 10 v + 1 - p) k with hk | hk
  · -- The other number is a multiple of the same power of ten.
    obtain ⟨j, hj⟩ := Int.eq_ofNat_of_zero_le (sub_nonneg.2 hk)
    have hmul : (m : ℚ) * 10 ^ k =
        ((m * 10 ^ j : Nat) : ℤ) * 10 ^ (Int.log 10 v + 1 - p) := by
      push_cast
      rw [mul_assoc, ← zpow_natCast, ← zpow_add₀ (by norm_num), ← hj, sub_add_cancel]
    rw [hmul]
    exact abs_sub_roundAt_le v _ _
  · -- Its last digit stands further to the right, so it is below the power of ten under `v`.
    have hbelow : (m : ℚ) * 10 ^ k ≤ 10 ^ Int.log 10 v := by
      calc (m : ℚ) * 10 ^ k ≤ 10 ^ p * 10 ^ k := by
            have hm' : (m : ℚ) ≤ 10 ^ p := by exact_mod_cast hm.le
            gcongr
        _ = 10 ^ (p + k) := by rw [← zpow_natCast, ← zpow_add₀ (by norm_num)]
        _ ≤ 10 ^ Int.log 10 v := zpow_le_zpow_right₀ (by norm_num) (by omega)
    have hpower := abs_sub_roundAt_le v (Int.log 10 v + 1 - p) (10 ^ (p - 1))
    have hfirst : ((p - 1 : Nat) : ℤ) + (Int.log 10 v + 1 - p) = Int.log 10 v := by omega
    rw [cast_pow_mul, hfirst, abs_of_nonneg (sub_nonneg.2 hlow)] at hpower
    calc |v - toSignificant p v| ≤ v - 10 ^ Int.log 10 v := hpower
      _ ≤ v - m * 10 ^ k := by linarith
      _ ≤ |v - m * 10 ^ k| := le_abs_self _

/-! ## What is written -/

/-- A quotient that is counted in steps and rounded is rounded to a multiple of the step. -/
theorem roundHalfEven_inSteps (num : Nat) (hden : 0 < den) (k : ℤ) :
    (roundHalfEven (Decimal.inSteps num den k).1 (Decimal.inSteps num den k).2 : ℤ) =
      nearestEven (num / den / 10 ^ k) := by
  obtain ⟨hpos, hvalue⟩ := Decimal.inSteps_value num hden k
  rw [← nearestEven_div _ hpos, hvalue]

namespace Decimal

/-- A quotient with so many places, without zeros at the end, denotes the number rounded to these
places. -/
theorem trimZeros_fixedPoint (num : Nat) (hden : 0 < den) (places : Nat) :
    ∃ d : PlainDecimal, trimZeros (fixedPoint num den places) = d.chars ∧
      d.value = roundAt (-places) (num / den) := by
  obtain ⟨d, hchars, -, hvalue⟩ :=
    trimZeros_withPoint (roundHalfEven (num * 10 ^ places) den) places
  refine ⟨d, hchars, ?_⟩
  have hround : (roundHalfEven (num * 10 ^ places) den : ℤ) =
      nearestEven (num / den / 10 ^ (-places : ℤ)) := by
    rw [← nearestEven_div _ hden, zpow_neg, zpow_natCast, div_inv_eq_mul, div_mul_eq_mul_div]
    push_cast
    rfl
  rw [hvalue, roundAt, ← hround, zpow_neg, zpow_natCast, Int.cast_natCast, div_eq_mul_inv]

/-- The parts of the scientific notation: the exponent is that of the number rounded to significant
digits, and the mantissa, without zeros at the end, has one digit before the point and denotes the
rest of it. -/
theorem scientificParts_eq (hnum : 0 < num) (hden : 0 < den) (hp : 1 ≤ p) :
    (scientificParts num den (p - 1)).2 = Int.log 10 (toSignificant p (num / den)) ∧
      ∃ d : PlainDecimal, trimZeros (scientificParts num den (p - 1)).1 = d.chars ∧
        d.whole < 10 ∧
        d.value * 10 ^ Int.log 10 (toSignificant p (num / den)) = toSignificant p (num / den) := by
  have hv : (0 : ℚ) < num / den := by positivity
  have hlast : Int.log 10 (num / den : ℚ) - (p - 1 : Nat) = Int.log 10 (num / den : ℚ) + 1 - p := by
    omega
  have hround := roundHalfEven_inSteps num hden (Int.log 10 (num / den : ℚ) + 1 - p)
  have hsplit : p - 1 + 1 = p := by omega
  unfold scientificParts
  dsimp only
  rw [leadingExponent_eq_log hnum hden, hlast, hsplit]
  generalize inSteps num den (Int.log 10 (num / den : ℚ) + 1 - p) = steps at hround ⊢
  obtain ⟨n, d⟩ := steps
  dsimp only at hround ⊢
  generalize roundHalfEven n d = coefficient at hround ⊢
  rcases toSignificant_cases hp hv with ⟨hlt, hlog⟩ | ⟨hcarry, hlog, heq⟩
  · rw [← hround] at hlt
    have hlt' : coefficient < 10 ^ p := by exact_mod_cast hlt
    rw [if_neg hlt'.ne, hlog]
    obtain ⟨d, hchars, hwhole, hvalue⟩ := trimZeros_withPoint coefficient (p - 1)
    refine ⟨rfl, d, hchars, ?_, ?_⟩
    · rw [hwhole, Nat.div_lt_iff_lt_mul (by positivity), ← Nat.pow_succ', Nat.succ_eq_add_one,
        hsplit]
      exact hlt'
    · rw [hvalue, toSignificant, roundAt, ← hround, Int.cast_natCast, ← zpow_natCast,
        div_mul_eq_mul_div, mul_div_assoc, ← zpow_sub₀ (by norm_num), hlast]
  · rw [← hround] at hcarry
    have hcarry' : coefficient = 10 ^ p := by exact_mod_cast hcarry
    rw [if_pos hcarry', hlog]
    obtain ⟨d, hchars, hwhole, hvalue⟩ := trimZeros_withPoint (10 ^ (p - 1)) (p - 1)
    refine ⟨rfl, d, hchars, ?_, ?_⟩
    · rw [hwhole, Nat.div_self (by positivity)]
      decide
    · push_cast at hvalue
      rw [hvalue, div_self (by positivity), one_mul, heq]

end Decimal

end Calculator
