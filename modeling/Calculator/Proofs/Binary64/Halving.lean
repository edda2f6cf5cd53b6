import Calculator.Proofs.Binary64.Approximation

/-!
# Half of a sum

The sum of two finite numbers is rounded, and so is its half. Twice a magnitude is a magnitude as well,
if ranks do not end (`exists_units_double`), and rounding keeps the order. So half of a sum that is
between the doubles of two numbers is between these numbers after both roundings (`Halves.signed_le`,
`Halves.le_signed`). Only the sum can overflow, and then half of it is infinite as well
(`half_sum_between`, `half_sum_eq_infinite`).
-/

namespace Calculator.Binary64

variable {x y : Binary64} {t s z : ℚ} {p q r : Nat} {negative : Bool}

/-! ## Magnitudes -/

/-- Twice a magnitude is a magnitude, if ranks do not end. -/
theorem exists_units_double (r : Nat) : ∃ s, units s = 2 * units r := by
  obtain ⟨q, k, rfl, hq, hk⟩ := exists_significand r
  rcases Nat.lt_or_ge q (2 ^ 52) with hsmall | hlarge
  · -- Below the least exponent the significand is doubled.
    obtain rfl : k = 0 := by omega
    refine ⟨2 * q + 0 * 2 ^ 52, ?_⟩
    rw [units_significand (by omega) (.inl rfl), units_significand hq.le (.inl rfl), Nat.mul_assoc]
  · refine ⟨q + (k + 1) * 2 ^ 52, ?_⟩
    rw [units_significand hq.le (.inr hlarge), units_significand hq.le hk, Nat.pow_succ]
    ring

/-- A sum of `t` units is rounded to the rank `r`, and half of that to the rank `p`. -/
structure Halves (t : ℚ) (r p : Nat) : Prop where
  /-- The sum is rounded. -/
  sum : IsNearest t r
  /-- Its half is rounded. -/
  half : IsNearest (units r / 2) p

/-- Half of what is at most twice a magnitude is at most this magnitude. -/
theorem Halves.rank_le (h : Halves t r p) (ht : t ≤ 2 * units q) : p ≤ q := by
  obtain ⟨s, hs⟩ := exists_units_double q
  have hs' : (units s : ℚ) = 2 * units q := by exact_mod_cast hs
  have hr : (units r : ℚ) ≤ units s :=
    units_cast_le (h.sum.mono (isNearest_units s) (by rw [hs']; exact ht))
  exact h.half.mono (isNearest_units q) (by linarith)

/-- Half of what is at least twice a magnitude is at least this magnitude. -/
theorem Halves.le_rank (h : Halves t r p) (ht : 2 * units q ≤ t) : q ≤ p := by
  obtain ⟨s, hs⟩ := exists_units_double q
  have hs' : (units s : ℚ) = 2 * units q := by exact_mod_cast hs
  have hr : (units s : ℚ) ≤ units r :=
    units_cast_le ((isNearest_units s).mono h.sum (by rw [hs']; exact ht))
  exact (isNearest_units q).mono h.half (by linarith)

/-- Half of nothing is nothing. -/
theorem Halves.eq_zero (h : Halves 0 r p) : p = 0 :=
  Nat.le_zero.1 (h.rank_le (by rw [units_zero, Nat.cast_zero, mul_zero]))

/-! ## Signs -/

/-- Half of a sum of `s` units, with the sign of the sum, is at most `z` if the sum is at most twice as
much. -/
theorem Halves.signed_le (h : Halves |s| r p) (hz : |z| = units q) (hle : s ≤ 2 * z) :
    (if s < 0 then -(units p : ℚ) else units p) ≤ z := by
  have hp : (0 : ℚ) ≤ units p := Nat.cast_nonneg _
  split_ifs with hneg
  · rcases le_total 0 z with hz' | hz'
    · linarith
    · -- Both are negative, so that the magnitude of the half is the larger one.
      rw [abs_of_neg hneg] at h
      rw [abs_of_nonpos hz'] at hz
      have hle' : (units q : ℚ) ≤ units p := units_cast_le (h.le_rank (by linarith))
      linarith
  · rw [abs_of_nonneg (not_lt.1 hneg)] at h
    rw [abs_of_nonneg (by linarith)] at hz
    have hle' : (units p : ℚ) ≤ units q := units_cast_le (h.rank_le (by linarith))
    linarith

/-- The half of the opposite sum is the opposite half. -/
theorem Halves.signed_neg (h : Halves |s| r p) :
    (if -s < 0 then -(units p : ℚ) else units p) = -(if s < 0 then -(units p : ℚ) else units p) := by
  rcases lt_trichotomy s 0 with hs | rfl | hs
  · rw [if_neg (by linarith), if_pos hs, neg_neg]
  · rw [abs_zero] at h
    simp [h.eq_zero]
  · rw [if_pos (by linarith), if_neg (by linarith)]

/-- Half of a sum of `s` units is at least `z` if the sum is at least twice as much. -/
theorem Halves.le_signed (h : Halves |s| r p) (hz : |z| = units q) (hle : 2 * z ≤ s) :
    z ≤ if s < 0 then -(units p : ℚ) else units p := by
  have hneg : Halves |-s| r p := by rwa [abs_neg]
  have hopposite := hneg.signed_le (z := -z) (by rwa [abs_neg]) (by linarith)
  rw [h.signed_neg] at hopposite
  linarith

/-! ## Sums and halves of numbers -/

/-- The sum of finite numbers is the exact sum, rounded, and has its sign unless this is zero. -/
theorem exists_add_eq (hx : x.isFinite = true) (hy : y.isFinite = true) :
    ∃ negative r, x + y = ofRank negative r ∧
      IsNearest |((x.signedUnits + y.signedUnits : ℤ) : ℚ)| r ∧
      (x.signedUnits + y.signedUnits ≠ 0 →
        negative = decide (x.signedUnits + y.signedUnits < 0)) := by
  obtain ⟨a, i, rfl⟩ := exists_finite hx
  obtain ⟨b, j, rfl⟩ := exists_finite hy
  change ∃ negative r, add _ _ = _ ∧ _
  rw [add]
  generalize (finite a i).signedUnits + (finite b j).signedUnits = sum
  have hnearest := isNearest_nearestRank sum.natAbs Nat.one_pos
  rw [Nat.cast_one, div_one, Nat.cast_natAbs, Int.cast_abs] at hnearest
  split_ifs with hzero
  · -- Which sign a zero gets is left open.
    rw [hzero, Int.natAbs_zero] at hnearest
    exact ⟨_, _, rfl, hzero ▸ hnearest, fun hne => absurd hzero hne⟩
  · exact ⟨_, _, rfl, hnearest, fun _ => rfl⟩

/-- Half of a finite number is finite. -/
theorem exists_div_two_eq (negative : Bool) (rank : Fin magnitudes) :
    ∃ p : Fin magnitudes, finite negative rank / 2 = finite negative p ∧
      IsNearest (units rank / 2) p := by
  obtain ⟨two, htwo, hunits⟩ := exists_ofNat_eq (a := 2) (by decide)
  have hpos : 0 < units two := hunits ▸ Nat.mul_pos Nat.two_pos unitsPerOne_pos
  have hquotient : ((units rank * unitsPerOne : ℕ) / (units two : ℕ) : ℚ) = units rank / 2 := by
    have hne := unitsPerOne_cast_pos.ne'
    rw [hunits]
    push_cast
    field_simp
  have hnearest := isNearest_nearestRank (units rank * unitsPerOne) hpos
  rw [hquotient] at hnearest
  have hle : nearestRank (units rank * unitsPerOne) (units two) ≤ rank :=
    hnearest.mono (isNearest_units rank) (half_le_self (Nat.cast_nonneg _))
  have hbound := hle.trans_lt rank.isLt
  refine ⟨⟨_, hbound⟩, ?_, hnearest⟩
  change finite negative rank / ofNat 2 = _
  rw [htwo]
  change div _ _ = _
  rw [div, if_neg (ne_zero_of_units hunits Nat.two_pos), Bool.bne_false, ofUnits, ofRank,
    dif_pos hbound]

/-- A sum in units is the sum of the values. -/
theorem cast_signedUnits_add (x y : Binary64) :
    ((x.signedUnits + y.signedUnits : ℤ) : ℚ) = (x.value + y.value) * unitsPerOne := by
  have hne := unitsPerOne_cast_pos.ne'
  rw [value, value, ← add_div, div_mul_cancel₀ _ hne, Int.cast_add]

/-- A sum whose value is below the limit is rounded to a finite number, and others are not. -/
theorem lt_overflowLimit_iff
    (h : IsNearest |((x.signedUnits + y.signedUnits : ℤ) : ℚ)| r) :
    r < magnitudes ↔ |x.value + y.value| < overflowLimit := by
  rw [h.lt_magnitudes_iff, cast_signedUnits_add, abs_mul, abs_of_pos unitsPerOne_cast_pos,
    mul_lt_mul_iff_left₀ unitsPerOne_cast_pos]

/-- The magnitude of a finite number is one in units. -/
theorem exists_abs_signedUnits (hx : x.isFinite = true) : ∃ q, |(x.signedUnits : ℚ)| = units q := by
  obtain ⟨negative, rank, rfl⟩ := exists_finite hx
  refine ⟨rank, ?_⟩
  rw [signedUnits_finite]
  cases negative <;> simp

/-- The half has the sign of the sum, unless it is zero. -/
theorem Halves.signedUnits_eq {sum : ℤ} {p : Fin magnitudes} (h : Halves |(sum : ℚ)| r p)
    (hsign : sum ≠ 0 → negative = decide (sum < 0)) :
    ((finite negative p).signedUnits : ℚ) =
      if (sum : ℚ) < 0 then -(units p : ℚ) else units p := by
  rw [signedUnits_finite]
  by_cases hzero : sum = 0
  · rw [hzero, Int.cast_zero, abs_zero] at h
    rw [h.eq_zero]
    simp
  · rw [hsign hzero]
    simp only [decide_eq_true_iff, Int.cast_lt_zero]
    split_ifs <;> simp

/-- Half of a sum that does not overflow is between the two numbers. -/
theorem half_sum_between (hx : x.isFinite = true) (hy : y.isFinite = true)
    (hle : x.value ≤ y.value) (hlt : |x.value + y.value| < overflowLimit) :
    ((x + y) / 2).isFinite = true ∧ x.value ≤ ((x + y) / 2).value ∧
      ((x + y) / 2).value ≤ y.value := by
  obtain ⟨negative, r, hsum, hnearest, hsign⟩ := exists_add_eq hx hy
  have hbound := (lt_overflowLimit_iff hnearest).2 hlt
  obtain ⟨p, hhalf, hnearest'⟩ := exists_div_two_eq negative ⟨r, hbound⟩
  have hhalves : Halves |((x.signedUnits + y.signedUnits : ℤ) : ℚ)| r p := ⟨hnearest, hnearest'⟩
  obtain ⟨i, hi⟩ := exists_abs_signedUnits hx
  obtain ⟨j, hj⟩ := exists_abs_signedUnits hy
  have hpos := unitsPerOne_cast_pos
  rw [value, value, div_le_div_iff_of_pos_right hpos] at hle
  rw [hsum, ofRank, dif_pos hbound, hhalf, value, value, value, div_le_div_iff_of_pos_right hpos,
    div_le_div_iff_of_pos_right hpos, hhalves.signedUnits_eq hsign]
  refine ⟨rfl, hhalves.le_signed hi ?_, hhalves.signed_le hj ?_⟩
  · push_cast
    linarith
  · push_cast
    linarith

/-- Half of a sum that overflows is infinite. -/
theorem half_sum_eq_infinite (hx : x.isFinite = true) (hy : y.isFinite = true)
    (hle : overflowLimit ≤ |x.value + y.value|) :
    (x + y) / 2 = infinite (decide (x.value + y.value < 0)) := by
  obtain ⟨negative, r, hsum, hnearest, hsign⟩ := exists_add_eq hx hy
  have hbound : ¬ r < magnitudes := fun h => ((lt_overflowLimit_iff hnearest).1 h).not_ge hle
  -- Only of a sum that is zero the sign would not be known.
  have hne : x.signedUnits + y.signedUnits ≠ 0 := by
    intro hzero
    rw [hzero, Int.cast_zero, abs_zero, ← Nat.cast_zero, ← units_zero] at hnearest
    exact hbound (hnearest.unique (isNearest_units 0) ▸ by decide)
  have hsign' : decide (x.signedUnits + y.signedUnits < 0) = decide (x.value + y.value < 0) := by
    have hiff : (x.value + y.value) * unitsPerOne < 0 * unitsPerOne ↔ x.value + y.value < 0 :=
      mul_lt_mul_iff_left₀ unitsPerOne_cast_pos
    rw [zero_mul] at hiff
    rw [decide_eq_decide, ← Int.cast_lt_zero (R := ℚ), cast_signedUnits_add, hiff]
  rw [hsum, ofRank, dif_neg hbound, ← hsign', ← hsign hne]
  exact infinite_div_ofNat (by decide)

end Calculator.Binary64
