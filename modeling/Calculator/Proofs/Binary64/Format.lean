import Calculator.Proofs.Binary64.Units
import Calculator.Proofs.Decimal.Significant

/-!
# The text of a result

A result that is an integer below `2 ^ 63` is shown as this integer. Every other finite number is
shown rounded to significant digits: `Shows` says which notation a rounded number has, and that the
text denotes just this number (`format_finite`). No number but zero is shown as zero, because a
positive number is rounded to a positive one.
-/

namespace Calculator

/-- A text shows the positive number `r` in the notation for `p` significant digits: with an exponent
if the leading digit stands five places or more behind the point or further before it than there are
digits, and with all digits in their places otherwise. The text denotes `r` itself. -/
def Decimal.Shows (p : Nat) (r : ℚ) (text : List Char) : Prop :=
  ∃ d : PlainDecimal,
    if Int.log 10 r < -4 ∨ p ≤ Int.log 10 r then
      d.whole < 10 ∧ d.value * 10 ^ Int.log 10 r = r ∧
        text = d.chars ++ 'e' :: signedNumeral (Int.log 10 r)
    else d.value = r ∧ text = d.chars

namespace Binary64

variable {negative : Bool} {rank : Fin magnitudes} {n : ℤ}

/-- The number that a finite `Binary64` stands for. -/
def value (x : Binary64) : ℚ := x.signedUnits / unitsPerOne

/-! ## Values -/

/-- There are units in one, as a rational number. -/
theorem unitsPerOne_cast_pos : (0 : ℚ) < unitsPerOne := by
  exact_mod_cast unitsPerOne_pos

/-- The units of a finite number are its magnitude and its sign. -/
theorem signedUnits_finite (negative : Bool) (rank : Fin magnitudes) :
    (finite negative rank).signedUnits = if negative then -(units rank : ℤ) else units rank := by
  cases negative <;> rfl

/-- The absolute value of a finite number is its magnitude. -/
theorem abs_value (negative : Bool) (rank : Fin magnitudes) :
    |(finite negative rank).value| = units rank / unitsPerOne := by
  have hunits : |((finite negative rank).signedUnits : ℚ)| = units rank := by
    rw [signedUnits_finite]
    cases negative <;> simp
  rw [value, abs_div, hunits, abs_of_pos unitsPerOne_cast_pos]

/-- A finite number is negative if its sign is and it is not zero. -/
theorem value_neg_iff :
    (finite negative rank).value < 0 ↔ (negative && decide (rank.val ≠ 0)) = true := by
  have hpos : 0 < units rank ↔ rank.val ≠ 0 := by
    have hmono := units_strictMono.lt_iff_lt (a := 0) (b := rank.val)
    rw [units_zero] at hmono
    exact hmono.trans Nat.pos_iff_ne_zero
  rw [value, div_lt_iff₀ unitsPerOne_cast_pos, zero_mul, Int.cast_lt_zero, Bool.and_eq_true,
    decide_eq_true_iff, ← hpos, signedUnits_finite]
  cases negative <;> simp

/-- A finite number is the integer `n` if its magnitude is that of `n` in units. -/
theorem units_of_value (h : (finite negative rank).value = n) :
    units rank = n.natAbs * unitsPerOne := by
  have habs := abs_value negative rank
  rw [h, eq_div_iff unitsPerOne_cast_pos.ne', ← Int.cast_abs, Int.abs_eq_natAbs] at habs
  exact_mod_cast habs.symm

/-- A number without a fractional part is an integer. -/
theorem exists_value_of_isIntegral (h : (finite negative rank).isIntegral = true) :
    ∃ n : ℤ, (finite negative rank).value = n := by
  obtain ⟨w, hw⟩ := Nat.dvd_of_mod_eq_zero (of_decide_eq_true h)
  have hcast : (units rank : ℚ) = unitsPerOne * w := by rw [hw, Nat.cast_mul]
  refine ⟨if negative then -w else w, ?_⟩
  rw [value, div_eq_iff unitsPerOne_cast_pos.ne', signedUnits_finite, mul_comm]
  cases negative
  · exact hcast
  · rw [if_pos rfl, if_pos rfl, Int.cast_neg, Int.cast_natCast, hcast, Int.cast_neg,
      Int.cast_natCast, mul_neg]

/-- A magnitude other than zero is a positive number. -/
theorem magnitude_pos {rank : Nat} (hrank : 0 < units rank) : (0 : ℚ) < units rank / unitsPerOne := by
  have hcast : (0 : ℚ) < units rank := by exact_mod_cast hrank
  exact div_pos hcast unitsPerOne_cast_pos

/-! ## The text -/

/-- What is shown of a positive magnitude is the number rounded to significant digits. -/
theorem shows_significantText {rank p : Nat} (hrank : 0 < units rank) (hp : 1 ≤ p) :
    Decimal.Shows p (toSignificant p (units rank / unitsPerOne)) (significantText rank p) := by
  obtain ⟨hexponent, mantissa, hmantissa, hwhole, hvalue⟩ :=
    Decimal.scientificParts_eq hrank unitsPerOne_pos hp
  have hagain := roundAt_log_toSignificant hp (magnitude_pos hrank)
  unfold significantText Decimal.Shows
  dsimp only
  rw [hexponent]
  generalize Int.log 10 (toSignificant p (units rank / unitsPerOne)) = e at *
  by_cases hscientific : e < -4 ∨ p ≤ e
  · refine ⟨mantissa, ?_⟩
    rw [if_pos hscientific, if_pos hscientific, hmantissa]
    exact ⟨hwhole, hvalue, rfl⟩
  · -- The second rounding is at the place where the digits of the first one end.
    obtain ⟨d, hchars, hfixed⟩ :=
      Decimal.trimZeros_fixedPoint (units rank) unitsPerOne_pos ((p : ℤ) - 1 - e).toNat
    have hplace : -(((p : ℤ) - 1 - e).toNat : ℤ) = e + 1 - p := by omega
    refine ⟨d, ?_⟩
    rw [if_neg hscientific, if_neg hscientific, hchars, hfixed, hplace, hagain]
    exact ⟨rfl, rfl⟩

/-- An integer below `2 ^ 63` is shown whole. -/
theorem formatChars_of_value (precision : Nat) (hn : (finite negative rank).value = n)
    (hlt : |n| < 2 ^ 63) :
    (finite negative rank).formatChars precision = signedNumeral n := by
  have hunits := units_of_value hn
  rw [Int.abs_eq_natAbs] at hlt
  have hintegral : (finite negative rank).isIntegral = true := by
    rw [isIntegral, hunits, Nat.mul_mod_left]
    rfl
  have hsmall : units rank < 2 ^ 63 * unitsPerOne := by
    rw [hunits]
    exact Nat.mul_lt_mul_of_pos_right (by omega) unitsPerOne_pos
  have hsign : (negative && decide (rank.val ≠ 0)) = decide (n < 0) := by
    rw [Bool.eq_iff_iff, ← value_neg_iff, hn, decide_eq_true_iff]
    exact Int.cast_lt_zero
  unfold formatChars
  dsimp only
  rw [hintegral, decide_eq_true hsmall, hsign, Bool.and_self, if_pos rfl, hunits,
    Nat.mul_div_cancel _ unitsPerOne_pos, signedNumeral]
  simp only [decide_eq_true_iff]

/-- Any other number is shown with significant digits. -/
theorem formatChars_of_not_integer (precision : Nat)
    (hnot : ¬ ∃ n : ℤ, (finite negative rank).value = n ∧ |n| < 2 ^ 63) :
    (finite negative rank).formatChars precision =
      if (finite negative rank).value < 0 then
        '-' :: significantText rank (clampPrecision precision)
      else significantText rank (clampPrecision precision) := by
  have hlarge : ((finite negative rank).isIntegral &&
      decide (units rank < 2 ^ 63 * unitsPerOne)) = false := by
    rw [Bool.eq_false_iff]
    intro hboth
    obtain ⟨hintegral, hsmall⟩ := Bool.and_eq_true_iff.1 hboth
    obtain ⟨n, hn⟩ := exists_value_of_isIntegral hintegral
    have hlt := of_decide_eq_true hsmall
    rw [units_of_value hn, Nat.mul_lt_mul_right unitsPerOne_pos] at hlt
    refine hnot ⟨n, hn, ?_⟩
    rw [Int.abs_eq_natAbs]
    omega
  unfold formatChars
  dsimp only
  rw [hlarge, if_neg Bool.false_ne_true]
  simp only [value_neg_iff]

/-- **The text of every finite number.** An integer below `2 ^ 63` is shown as it is. Any other number
is shown rounded to significant digits, with a sign if it is negative, and never as zero; no number
with as many digits is nearer to it. -/
theorem format_finite (negative : Bool) (rank : Fin magnitudes) (precision : Nat) :
    let x := finite negative rank
    let p := clampPrecision precision
    let r := toSignificant p |x.value|
    (∀ n : ℤ, x.value = n → |n| < 2 ^ 63 → x.format precision = String.ofList (signedNumeral n)) ∧
      ((¬ ∃ n : ℤ, x.value = n ∧ |n| < 2 ^ 63) →
        0 < r ∧ (∀ (m : Nat) (k : ℤ), m < 10 ^ p → |(|x.value| - r)| ≤ |(|x.value| - m * 10 ^ k)|) ∧
          ∃ text, Decimal.Shows p r text ∧
            x.format precision = String.ofList (if x.value < 0 then '-' :: text else text)) := by
  intro x p r
  constructor
  · intro n hn hlt
    rw [format, formatChars_of_value precision hn hlt]
  · intro hnot
    have habs : |x.value| = units rank / unitsPerOne := abs_value negative rank
    have hrank : 0 < units rank := by
      by_contra hzero
      rw [Nat.eq_zero_of_not_pos hzero, Nat.cast_zero, zero_div, abs_eq_zero] at habs
      exact hnot ⟨0, habs, by decide⟩
    have hv : 0 < |x.value| := habs ▸ magnitude_pos hrank
    have hp : 1 ≤ p := le_max_left _ _
    have hshows : Decimal.Shows p r (significantText rank p) := by
      change Decimal.Shows p (toSignificant p |x.value|) _
      rw [habs]
      exact shows_significantText hrank hp
    refine ⟨toSignificant_pos hp hv, fun m k hm => abs_sub_toSignificant_le hp hv hm k,
      significantText rank p, hshows, ?_⟩
    rw [format, formatChars_of_not_integer precision hnot]

/-- Rounding can carry into a new digit, and then none is left behind the point. -/
example : (ofQuotient true 9996 100).format 3 = "-100" := by decide +kernel

end Binary64

end Calculator
