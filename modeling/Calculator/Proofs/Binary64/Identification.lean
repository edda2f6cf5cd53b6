import Calculator.Proofs.Binary64.Rounded
import Calculator.Proofs.Binary64.Shortest

/-!
# Seventeen digits identify a number

With 17 digits the magnitude that is shown is at most half a step of a grid away from the number, and
the steps of this grid are narrower than those between magnitudes (`isClose_toSignificant`). So what
the text denotes is nearer to the number than to any other (`abs_sub_lt_of_denoted?`), and reading it
gives the number back.
-/

namespace Calculator.Binary64

variable {r v : ℚ} {negative negative' : Bool} {rank rank' : Fin magnitudes}

/-- A positive magnitude that is rounded to 17 significant digits stays close to itself. -/
theorem isClose_toSignificant (hrank : 0 < rank.val) :
    IsClose (toSignificant 17 (units rank / unitsPerOne) * unitsPerOne) rank := by
  have hpos := unitsPerOne_cast_pos
  have hfine := seventeen_digits_fine hrank
  have hplace : Int.log 10 (units rank / unitsPerOne : ℚ) + 1 - (17 : Nat) =
      Decimal.leadingExponent (units rank) unitsPerOne - (16 : Nat) := by
    rw [leadingExponent_eq_log (units_pos hrank) unitsPerOne_pos]
    omega
  have hround := abs_sub_roundAt_le_half (units rank / unitsPerOne)
    (Int.log 10 (units rank / unitsPerOne : ℚ) + 1 - (17 : Nat))
  rw [hplace] at hround
  rw [toSignificant, hplace]
  generalize Decimal.leadingExponent (units rank) unitsPerOne - (16 : Nat) = k at hfine hround ⊢
  refine isClose_of_grid hfine ?_
  have hunits : (units rank : ℚ) = units rank / unitsPerOne * unitsPerOne :=
    (div_mul_cancel₀ _ hpos.ne').symm
  calc |roundAt k (units rank / unitsPerOne) * unitsPerOne - units rank|
      = |units rank / unitsPerOne - roundAt k (units rank / unitsPerOne)| * unitsPerOne := by
        rw [abs_sub_comm (units rank / unitsPerOne : ℚ), ← abs_of_pos hpos, ← abs_mul,
          abs_of_pos hpos, sub_mul, ← hunits]
    _ ≤ 10 ^ k / 2 * unitsPerOne := mul_le_mul_of_nonneg_right hround hpos.le
    _ = 10 ^ k * unitsPerOne / 2 := div_mul_eq_mul_div _ _ _

/-- What is close to the magnitude of a number, with the sign of the number, is nearer to this number
than to any other. -/
theorem abs_sub_lt_of_isClose (hclose : IsClose (r * unitsPerOne) rank)
    (hr : 0 ≤ r) (hpos : (finite negative rank).value ≠ 0 → 0 < r)
    (hne : (finite negative' rank').value ≠ (finite negative rank).value) :
    |(if (finite negative rank).value < 0 then -r else r) - (finite negative rank).value| <
      |(if (finite negative rank).value < 0 then -r else r) -
        (finite negative' rank').value| := by
  have habs := abs_value negative rank
  have habs' := abs_value negative' rank'
  generalize (finite negative rank).value = x at *
  generalize (finite negative' rank').value = y at *
  have hx : |(if x < 0 then -r else r) - x| = |r - units rank / unitsPerOne| := by
    rw [← habs, ← abs_signed_sub r |x| (x < 0), signed_abs]
  rw [hx]
  by_cases hrank : rank'.val = rank.val
  · -- The other number is the opposite one, on the other side of zero.
    have hsame : |y| = |x| := by rw [habs, habs', hrank]
    have hopposite : y = -x := (abs_eq_abs.1 hsame).resolve_left hne
    have hzero : x ≠ 0 := by
      rintro rfl
      exact hne (by rw [hopposite, neg_zero])
    have hfar : |(if x < 0 then -r else r) - y| = r + |x| := by
      rw [← abs_signed_add hr (abs_nonneg x) (x < 0), signed_abs, hopposite, sub_neg_eq_add]
    have hr' : 0 < r := hpos hzero
    have hx' : 0 < |x| := abs_pos.2 hzero
    rw [hfar, ← habs, abs_lt]
    constructor <;> linarith
  · -- The magnitudes alone are farther apart.
    have hfar := abs_abs_sub_abs_le (if x < 0 then -r else r) y
    rw [abs_signed hr, habs'] at hfar
    refine lt_of_lt_of_le ?_ hfar
    rw [abs_sub_units_div, abs_sub_units_div]
    exact div_lt_div_of_pos_right (hclose.abs_sub_lt hrank) unitsPerOne_cast_pos

/-- With 17 digits or more the text of a number shows a magnitude that is close to its own. -/
theorem exists_isClose (negative : Bool) (rank : Fin magnitudes) {precision : Nat}
    (h : 17 ≤ precision) :
    let x := finite negative rank
    ∃ r text, Written r text ∧ IsClose (r * unitsPerOne) rank ∧ 0 ≤ r ∧ (x.value ≠ 0 → 0 < r) ∧
      x.formatChars precision = signedText (x.value < 0) text := by
  intro x
  have hclamp : clampPrecision precision = 17 := by
    unfold clampPrecision
    omega
  obtain ⟨r, text, hwritten, -, htext, hr⟩ := formatChars_written negative rank precision
  refine ⟨r, text, hwritten, ?_⟩
  rcases hr with hexact | ⟨hpos, hrounded⟩
  · have hunits : r * unitsPerOne = units rank := by
      rw [hexact, abs_value, div_mul_cancel₀ _ unitsPerOne_cast_pos.ne']
    refine ⟨?_, ?_, fun hx => ?_, htext⟩
    · rw [hunits]
      exact isClose_units rank
    · rw [hexact]
      exact abs_nonneg _
    · rw [hexact]
      exact abs_pos.2 hx
  · rw [abs_value] at hpos hrounded
    have hrank : 0 < rank.val := by
      refine Nat.pos_of_ne_zero fun hzero => ?_
      rw [hzero, units_zero, Nat.cast_zero, zero_div] at hpos
      exact lt_irrefl _ hpos
    have hpos' : 0 < r := by
      rw [hrounded]
      exact toSignificant_pos (le_max_left _ _) hpos
    refine ⟨?_, hpos'.le, fun _ => hpos', htext⟩
    rw [hrounded, hclamp]
    exact isClose_toSignificant hrank

/-- With 17 digits or more, what the text of a number denotes is nearer to this number than to any
other. -/
theorem abs_sub_lt_of_denoted? {y : Binary64} {precision : Nat} (h : 17 ≤ precision)
    (hv : denoted? ((finite negative rank).formatChars precision) = some v)
    (hy : y.isFinite = true) (hne : y.value ≠ (finite negative rank).value) :
    |v - (finite negative rank).value| < |v - y.value| := by
  obtain ⟨r, text, hwritten, hclose, hr, hpos, htext⟩ := exists_isClose negative rank h
  rw [htext, hwritten.denoted?] at hv
  cases hv
  obtain ⟨negative', rank', rfl⟩ := exists_finite hy
  exact abs_sub_lt_of_isClose hclose hr hpos hne

/-- With 17 digits or more, the text of a number is read as this number, up to the sign of zero. -/
theorem ofChars?_formatChars (negative : Bool) (rank : Fin magnitudes) {precision : Nat}
    (h : 17 ≤ precision) :
    ofChars? ((finite negative rank).formatChars precision) =
      some (if rank.val = 0 then zero else finite negative rank) := by
  obtain ⟨r, text, hwritten, hclose, hr, -, htext⟩ := exists_isClose negative rank h
  obtain ⟨s, hs, hread⟩ := ofChars?_of_denoted? (hwritten.denoted? ((finite negative rank).value < 0))
  rw [abs_signed hr] at hs
  obtain rfl : s = rank := hs.unique hclose.isNearest
  rw [htext, hread, hwritten.beginsWithMinus, ofRank, dif_pos rank.isLt]
  congr 1
  have hsign : decide ((finite negative rank).value < 0) = (negative && decide (rank.val ≠ 0)) := by
    rw [Bool.eq_iff_iff, decide_eq_true_iff, value_neg_iff]
  rw [hsign]
  split_ifs with hzero
  · obtain rfl : rank = ⟨0, by decide⟩ := Fin.ext hzero
    rw [decide_eq_false (not_not.2 rfl), Bool.and_false]
    rfl
  · rw [decide_eq_true hzero, Bool.and_true]

/-- **Seventeen digits identify a number.** With 17 digits or more, what the text of a finite number
denotes is nearer to this number than to any other finite one. So reading the text gives the number
back, a zero with a positive sign, and no other number has the same text. -/
theorem format_identifies (negative : Bool) (rank : Fin magnitudes) (precision : Nat)
    (h : 17 ≤ precision) :
    let x := finite negative rank
    (∃ v, denoted? (x.format precision).toList = some v ∧
      ∀ y : Binary64, y.isFinite = true → y.value ≠ x.value → |v - x.value| < |v - y.value|) ∧
    ofText? (x.format precision) = some (if rank.val = 0 then zero else x) ∧
    ∀ y : Binary64, y.isFinite = true → y.format precision = x.format precision →
      y.value = x.value := by
  intro x
  obtain ⟨r, text, hwritten, -, -, -, htext⟩ := exists_isClose negative rank h
  have hdenoted := hwritten.denoted? (x.value < 0)
  rw [← htext] at hdenoted
  have htoList (y : Binary64) : (y.format precision).toList = y.formatChars precision :=
    String.toList_ofList
  refine ⟨⟨_, by rw [htoList, hdenoted], fun y hy hne => ?_⟩, ?_, fun y hy hsame => ?_⟩
  · exact abs_sub_lt_of_denoted? h hdenoted hy hne
  · rw [ofText?, htoList]
    exact ofChars?_formatChars negative rank h
  · -- What both texts denote would be nearer to each of the two numbers than to the other one.
    have hchars : y.formatChars precision = x.formatChars precision := by
      rw [← htoList, ← htoList, hsame]
    by_contra hne
    obtain ⟨negative', rank', rfl⟩ := exists_finite hy
    have hx := abs_sub_lt_of_denoted? h hdenoted hy hne
    rw [← hchars] at hdenoted
    have hy' := abs_sub_lt_of_denoted? h hdenoted rfl (Ne.symm hne)
    exact lt_asymm hx hy'

/-- The negative number nearest to zero, with the seventeen digits that more are cut down to. -/
theorem format_identifies_least :
    let x := finite true ⟨1, by decide⟩
    17 ≤ 20 ∧ x.format 20 = "-4.9406564584124654e-324" ∧
      (∃ v, denoted? (x.format 20).toList = some v ∧
        ∀ y : Binary64, y.isFinite = true → y.value ≠ x.value → |v - x.value| < |v - y.value|) ∧
      ofText? (x.format 20) = some x ∧
      ∀ y : Binary64, y.isFinite = true → y.format 20 = x.format 20 → y.value = x.value :=
  ⟨by decide, by decide +kernel, format_identifies true ⟨1, by decide⟩ 20 (by decide)⟩

end Calculator.Binary64
