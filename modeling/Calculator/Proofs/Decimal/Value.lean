import Mathlib.Algebra.Order.Field.Basic
import Mathlib.Algebra.Order.Field.Rat
import Mathlib.Algebra.Order.Field.Power
import Mathlib.Data.Rat.Cast.Order
import Mathlib.Tactic.FieldSimp
import Mathlib.Tactic.Linarith
import Mathlib.Tactic.Ring
import Calculator.Decimal.Reading
import Calculator.Proofs.Decimal.Numeral

/-!
# The value of a decimal

`Decimal.value` is the rational number that a decimal stands for. Leaving out zeros at the end does
not change it, and the positional notation of a decimal is read as a decimal of the same value
(`ofPlain?_positional`). The exponent of the leading digit and the division into steps are also
stated as facts about rational numbers.
-/

namespace Calculator.Decimal

variable {num den : Nat} {whole fraction : List Char}

/-- The number that a decimal stands for. -/
def value (d : Decimal) : ℚ := d.coefficient * 10 ^ d.exponent

/-- A decimal stands for no negative number. -/
theorem value_nonneg (d : Decimal) : 0 ≤ d.value := by
  unfold value
  positivity

/-- A decimal is below the power of ten that its digits and its exponent give. -/
theorem value_lt (d : Decimal) :
    d.value < 10 ^ ((digitCount d.coefficient : ℤ) + d.exponent) := by
  have hlt : (d.coefficient : ℚ) < 10 ^ digitCount d.coefficient := by
    exact_mod_cast lt_pow_digitCount d.coefficient
  rw [zpow_add₀ (by norm_num), zpow_natCast]
  exact mul_lt_mul_of_pos_right hlt (by positivity)

/-- A decimal other than zero is not below the next smaller power of ten. -/
theorem pow_le_value {d : Decimal} (h : d.coefficient ≠ 0) :
    10 ^ ((digitCount d.coefficient : ℤ) + d.exponent - 1) ≤ d.value := by
  have hle : (10 ^ (digitCount d.coefficient - 1) : ℚ) ≤ d.coefficient := by
    exact_mod_cast pow_digitCount_le h
  have hexp : (digitCount d.coefficient : ℤ) + d.exponent - 1 =
      ((digitCount d.coefficient - 1 : Nat) : ℤ) + d.exponent := by
    have hpos := digitCount_pos h
    omega
  rw [hexp, zpow_add₀ (by norm_num), zpow_natCast]
  exact mul_le_mul_of_nonneg_right hle (by positivity)

/-- The zeros that are split off are a power of ten. -/
theorem splitZeros_mul (c : Nat) : (splitZeros c).1 * 10 ^ (splitZeros c).2 = c := by
  induction c using splitZeros.induct with
  | case1 =>
    rw [splitZeros, if_pos rfl]
    rfl
  | case2 c hne hzero rest count heq ih =>
    rw [splitZeros, if_neg hne, if_pos hzero]
    rw [heq] at ih ⊢
    dsimp only at ih ⊢
    rw [Nat.pow_succ, ← Nat.mul_assoc, ih]
    omega
  | case3 c hne hzero =>
    rw [splitZeros, if_neg hne, if_neg hzero]
    exact Nat.mul_one c

/-- Leaving out zeros at the end does not change the value. -/
@[simp] theorem value_normalize (d : Decimal) : d.normalize.value = d.value := by
  have hmul : (((splitZeros d.coefficient).1 * 10 ^ (splitZeros d.coefficient).2 : Nat) : ℚ) =
      d.coefficient := by rw [splitZeros_mul]
  push_cast at hmul
  calc d.normalize.value
      = (splitZeros d.coefficient).1 *
          10 ^ (d.exponent + ((splitZeros d.coefficient).2 : ℤ)) := rfl
    _ = (splitZeros d.coefficient).1 * 10 ^ (splitZeros d.coefficient).2 * 10 ^ d.exponent := by
        rw [zpow_add₀ (by norm_num), zpow_natCast]
        ring
    _ = d.value := by rw [hmul]; rfl

/-! ## Reading the positional notation -/

/-- Digits without a point are read as a natural number. -/
theorem ofPlain?_digits (hwhole : ∀ c ∈ whole, c.isDigit = true) (hne : whole ≠ []) :
    ofPlain? whole = some ⟨ofNumeral whole, 0⟩ := by
  have htake : whole.takeWhile Char.isDigit = whole := by
    rw [← List.append_nil whole, List.takeWhile_append_of_pos hwhole, List.takeWhile_nil]
  have hdrop : whole.dropWhile Char.isDigit = [] := by
    rw [← List.append_nil whole, List.dropWhile_append_of_pos hwhole, List.dropWhile_nil]
  have hempty : whole.isEmpty = false := by simpa using hne
  unfold ofPlain?
  simp only [htake, hdrop, hempty]
  rfl

/-- Digits with a point among them are read as the number without the point, counted in units of
the last place. -/
theorem ofPlain?_point (hwhole : ∀ c ∈ whole, c.isDigit = true) (hne : whole ≠ [])
    (hfraction : ∀ c ∈ fraction, c.isDigit = true) :
    ofPlain? (whole ++ '.' :: fraction) =
      some ⟨ofNumeral (whole ++ fraction), -(fraction.length : ℤ)⟩ := by
  have hpoint : ¬ Char.isDigit '.' = true := by decide
  have htake : (whole ++ '.' :: fraction).takeWhile Char.isDigit = whole := by
    rw [List.takeWhile_append_of_pos hwhole, List.takeWhile_cons_of_neg hpoint, List.append_nil]
  have hdrop : (whole ++ '.' :: fraction).dropWhile Char.isDigit = '.' :: fraction := by
    rw [List.dropWhile_append_of_pos hwhole, List.dropWhile_cons_of_neg hpoint]
  have hempty : whole.isEmpty = false := by simpa using hne
  have hall : fraction.all Char.isDigit = true := List.all_eq_true.2 hfraction
  unfold ofPlain?
  simp only [htake, hdrop, hempty, hall]
  rfl

/-- Zeros are digits. -/
theorem isDigit_of_mem_replicate_zero {n : Nat} : ∀ c ∈ List.replicate n '0', c.isDigit = true := by
  intro c hc
  rw [List.eq_of_mem_replicate hc]
  rfl

/-- The positional notation of a decimal is read as a decimal of the same value. -/
theorem ofPlain?_positional (d : Decimal) :
    ∃ r, ofPlain? d.positional = some r ∧ r.value = d.value := by
  rw [← value_normalize d, positional]
  obtain ⟨c, e⟩ := d.normalize
  have hdigits : ∀ c' ∈ numeral c, c'.isDigit = true := isDigit_of_mem_numeral
  dsimp only
  split_ifs with hnonneg hlong
  -- There is no point, and zeros fill the places that the exponent leaves.
  · obtain ⟨n, rfl⟩ := Int.eq_ofNat_of_zero_le hnonneg
    have hread : ofPlain? (numeral c ++ List.replicate n '0') = some _ :=
      ofPlain?_digits
        (List.forall_mem_append.2 ⟨hdigits, isDigit_of_mem_replicate_zero⟩)
        (List.append_ne_nil_of_left_ne_nil (numeral_ne_nil c) _)
    refine ⟨_, hread, ?_⟩
    rw [ofNumeral_append, ofNumeral_numeral, ofNumeral_replicate_zero, List.length_replicate]
    simp only [value, zpow_natCast, zpow_zero]
    push_cast
    ring
  · -- The digits begin before the point.
    have hread : ofPlain? ((numeral c).take ((numeral c).length - e.natAbs) ++
        '.' :: (numeral c).drop ((numeral c).length - e.natAbs)) = some _ :=
      ofPlain?_point (fun c' hc => hdigits c' (List.mem_of_mem_take hc))
        (List.ne_nil_of_length_pos (by rw [List.length_take]; omega))
        (fun c' hc => hdigits c' (List.mem_of_mem_drop hc))
    refine ⟨_, hread, ?_⟩
    rw [List.take_append_drop, ofNumeral_numeral, List.length_drop]
    have hexp : -(((numeral c).length - ((numeral c).length - e.natAbs) : Nat) : ℤ) = e := by omega
    rw [hexp]
  · -- The digits begin behind the point, perhaps after zeros.
    have hread : ofPlain? (['0'] ++ '.' ::
        (List.replicate (e.natAbs - (numeral c).length) '0' ++ numeral c)) = some _ :=
      ofPlain?_point (List.forall_mem_singleton.2 rfl) (List.cons_ne_nil _ _)
        (List.forall_mem_append.2 ⟨isDigit_of_mem_replicate_zero, hdigits⟩)
    refine ⟨_, hread, ?_⟩
    have hzero : ofNumeral ['0'] = 0 := rfl
    rw [ofNumeral_append, ofNumeral_append, hzero, ofNumeral_replicate_zero, ofNumeral_numeral,
      List.length_append, List.length_replicate]
    have hexp : -((e.natAbs - (numeral c).length + (numeral c).length : Nat) : ℤ) = e := by omega
    rw [hexp, Nat.zero_mul, Nat.zero_mul, Nat.zero_add, Nat.zero_add]

/-- A digit may stand in a run of digits and points. -/
theorem isNumeralChar_of_isDigit {c : Char} (h : c.isDigit = true) : isNumeralChar c = true := by
  rw [isNumeralChar, h, Bool.true_or]

/-- The positional notation is made of digits and points. -/
theorem isNumeralChar_of_mem_positional (d : Decimal) :
    ∀ c ∈ d.positional, isNumeralChar c = true := by
  rw [positional]
  obtain ⟨c, e⟩ := d.normalize
  have hdigits : ∀ c' ∈ numeral c, isNumeralChar c' = true :=
    fun c' hc => isNumeralChar_of_isDigit (isDigit_of_mem_numeral c' hc)
  have hzeros : ∀ n, ∀ c' ∈ List.replicate n '0', isNumeralChar c' = true :=
    fun n c' hc => isNumeralChar_of_isDigit (isDigit_of_mem_replicate_zero c' hc)
  dsimp only
  split_ifs with hnonneg hlong
  · exact List.forall_mem_append.2 ⟨hdigits, hzeros _⟩
  · refine List.forall_mem_append.2 ⟨fun c' hc => hdigits c' (List.mem_of_mem_take hc), ?_⟩
    exact List.forall_mem_cons.2 ⟨rfl, fun c' hc => hdigits c' (List.mem_of_mem_drop hc)⟩
  · refine List.forall_mem_cons.2 ⟨rfl, List.forall_mem_cons.2 ⟨rfl, ?_⟩⟩
    exact List.forall_mem_append.2 ⟨hzeros _, hdigits⟩

/-- The positional notation is not empty. -/
theorem positional_ne_nil (d : Decimal) : d.positional ≠ [] := by
  intro h
  obtain ⟨r, hr, -⟩ := ofPlain?_positional d
  rw [h] at hr
  cases hr

/-! ## Steps and leading digits -/

/-- The quotient in steps of a power of ten. -/
theorem inSteps_value (num : Nat) (hden : 0 < den) (e : ℤ) :
    0 < (inSteps num den e).2 ∧
      ((inSteps num den e).1 / (inSteps num den e).2 : ℚ) = num / den / 10 ^ e := by
  have hden' : (den : ℚ) ≠ 0 := by exact_mod_cast hden.ne'
  unfold inSteps
  split_ifs with he
  · obtain ⟨n, rfl⟩ := Int.eq_ofNat_of_zero_le he
    refine ⟨Nat.mul_pos hden (Nat.pow_pos (by decide)), ?_⟩
    simp only [Int.toNat_natCast, zpow_natCast]
    push_cast
    rw [div_div]
  · refine ⟨hden, ?_⟩
    have he' : e = -(e.natAbs : ℤ) := by omega
    rw [he', zpow_neg, zpow_natCast, Int.natAbs_neg, Int.natAbs_natCast]
    push_cast
    field_simp

/-- The leading digit of a positive quotient stands where its exponent says. -/
theorem leadingExponent_bounds (hnum : 0 < num) (hden : 0 < den) :
    (10 : ℚ) ^ leadingExponent num den ≤ num / den ∧
      (num / den : ℚ) < 10 ^ (leadingExponent num den + 1) := by
  have hnum' : (0 : ℚ) < num := by exact_mod_cast hnum
  have hden' : (0 : ℚ) < den := by exact_mod_cast hden
  unfold leadingExponent
  split_ifs with h
  · have hne : num / den ≠ 0 := (Nat.div_pos h hden).ne'
    have hpos := digitCount_pos hne
    have hlow := pow_digitCount_le hne
    have hhigh := lt_pow_digitCount (num / den)
    generalize digitCount (num / den) = n at hpos hlow hhigh ⊢
    have hexp : (n : ℤ) - 1 = ((n - 1 : Nat) : ℤ) := by omega
    rw [sub_add_cancel, hexp, zpow_natCast, zpow_natCast, le_div_iff₀ hden', div_lt_iff₀ hden']
    constructor
    · exact_mod_cast (Nat.le_div_iff_mul_le hden).1 hlow
    · exact_mod_cast (Nat.div_lt_iff_lt_mul hden).1 hhigh
  · -- Below one the reciprocal is rounded up, and its digits are counted.
    have htwo : 2 ≤ (den + num - 1) / num := (Nat.le_div_iff_mul_le hnum).2 (by omega)
    have hne : (den + num - 1) / num - 1 ≠ 0 := by omega
    have hpos := digitCount_pos hne
    have hlow := pow_digitCount_le hne
    have hhigh := lt_pow_digitCount ((den + num - 1) / num - 1)
    generalize digitCount ((den + num - 1) / num - 1) = n at hpos hlow hhigh ⊢
    have hlow' : (10 ^ (n - 1) + 1) * num ≤ den + num - 1 :=
      (Nat.le_div_iff_mul_le hnum).1 (by omega)
    have hhigh' : den + num - 1 < (10 ^ n + 1) * num :=
      (Nat.div_lt_iff_lt_mul hnum).1 (by omega)
    rw [Nat.succ_mul] at hlow' hhigh'
    have hexp : -(n : ℤ) + 1 = -((n - 1 : Nat) : ℤ) := by omega
    rw [hexp, zpow_neg, zpow_neg, zpow_natCast, zpow_natCast]
    constructor
    · rw [inv_le_comm₀ (by positivity) (by positivity), inv_div, div_le_iff₀ hnum']
      exact_mod_cast (show den ≤ 10 ^ n * num by omega)
    · rw [lt_inv_comm₀ (by positivity) (by positivity), inv_div, lt_div_iff₀ hnum']
      exact_mod_cast (show 10 ^ (n - 1) * num < den by omega)

end Calculator.Decimal
