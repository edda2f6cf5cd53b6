import Calculator.Proofs.Binary64.Format
import Calculator.Proofs.Binary64.Reading
import Calculator.Proofs.Decimal.Denoted
import Calculator.Proofs.Token.Number

/-!
# From a number to its text and back

What is shown of a finite number denotes its magnitude, exactly or rounded to significant digits,
with its sign (`formatChars_written`). Whatever number a text denotes, the text is read as the number
with the nearest rank (`ofChars?_of_denoted?`). `RoundsTo` says the same without ranks: no finite
number is nearer, and the significand is even where another one is as near.
-/

namespace Calculator.Binary64

variable {r x v : ℚ} {text : List Char} {d : Decimal} {negative : Bool} {rank : Fin magnitudes}

/-! ## Signs -/

/-- A sign does not change a magnitude. -/
theorem abs_signed (hr : 0 ≤ r) (negative : Prop) [Decidable negative] :
    |if negative then -r else r| = r := by
  split_ifs
  · rw [abs_neg, abs_of_nonneg hr]
  · exact abs_of_nonneg hr

/-- Numbers of the same sign are as far from each other as their magnitudes are. -/
theorem abs_signed_sub (r x : ℚ) (negative : Prop) [Decidable negative] :
    |(if negative then -r else r) - (if negative then -x else x)| = |r - x| := by
  split_ifs
  · rw [neg_sub_neg, abs_sub_comm]
  · rfl

/-- Numbers of opposite signs are as far from each other as the sum of their magnitudes. -/
theorem abs_signed_add (hr : 0 ≤ r) (hx : 0 ≤ x) (negative : Prop) [Decidable negative] :
    |(if negative then -r else r) + (if negative then -x else x)| = r + x := by
  split_ifs
  · rw [← neg_add, abs_neg, abs_of_nonneg (add_nonneg hr hx)]
  · exact abs_of_nonneg (add_nonneg hr hx)

/-- Only zero is as far from a number as from its opposite. -/
theorem eq_zero_of_add_eq_abs_sub (hr : 0 ≤ r) (hx : 0 < x) (h : r + x = |r - x|) : r = 0 := by
  by_contra hne
  have hpos : 0 < r := lt_of_le_of_ne hr (Ne.symm hne)
  have hlt : |r - x| < r + x := abs_lt.2 ⟨by linarith, by linarith⟩
  exact hlt.ne h.symm

/-- A number is its magnitude with its sign. -/
theorem signed_abs (x : ℚ) : (if x < 0 then -|x| else |x|) = x := by
  split_ifs with hneg
  · rw [abs_of_neg hneg, neg_neg]
  · exact abs_of_nonneg (not_lt.1 hneg)

/-- A finite number is a sign and a rank. -/
theorem exists_finite {y : Binary64} (h : y.isFinite = true) :
    ∃ negative rank, y = finite negative rank := by
  cases y with
  | nan => cases h
  | infinite => cases h
  | finite negative rank => exact ⟨negative, rank, rfl⟩

/-- The value of a finite number is its magnitude with its sign. -/
theorem value_finite (negative : Bool) (rank : Fin magnitudes) :
    (finite negative rank).value =
      if negative = true then -(units rank / unitsPerOne : ℚ) else units rank / unitsPerOne := by
  rw [value, signedUnits_finite]
  split_ifs
  · rw [Int.cast_neg, Int.cast_natCast, neg_div]
  · rw [Int.cast_natCast]

/-- The distance to a magnitude, counted in units. -/
theorem abs_sub_units_div (r : ℚ) (s : Nat) :
    |r - units s / unitsPerOne| = |r * unitsPerOne - units s| / unitsPerOne := by
  have hunits := unitsPerOne_cast_pos
  rw [← abs_of_pos hunits, ← abs_div, abs_of_pos hunits, sub_div,
    mul_div_cancel_right₀ _ hunits.ne']

/-! ## The nearest number -/

/-- The finite number that `v` is rounded to: no finite number is nearer, and where another one is as
near, its significand is even. -/
structure RoundsTo (v : ℚ) (y : Binary64) : Prop where
  /-- It is a finite number. -/
  isFinite : y.isFinite = true
  /-- No other finite number is nearer. -/
  le (z : Binary64) : z.isFinite = true → |v - y.value| ≤ |v - z.value|
  /-- Of two that are equally near it has the even significand. -/
  even (z : Binary64) : z.isFinite = true → z.value ≠ y.value → |v - z.value| = |v - y.value| →
    ∃ negative rank, y = finite negative rank ∧ rank.val % 2 = 0

/-- A number is rounded to its sign and the rank nearest to its magnitude. -/
theorem roundsTo_finite (hr : 0 ≤ r) (h : IsNearest (r * unitsPerOne) rank) (negative : Bool) :
    RoundsTo (if negative = true then -r else r) (finite negative rank) := by
  have hunits := unitsPerOne_cast_pos
  have hown : |(if negative = true then -r else r) - (finite negative rank).value| =
      |r * unitsPerOne - units rank| / unitsPerOne := by
    rw [value_finite, abs_signed_sub, abs_sub_units_div]
  -- The magnitudes of two numbers are not farther apart than the numbers.
  have hother (negative' : Bool) (rank' : Fin magnitudes) :
      |r * unitsPerOne - units rank'| / unitsPerOne ≤
        |(if negative = true then -r else r) - (finite negative' rank').value| := by
    have hle := abs_abs_sub_abs_le (if negative = true then -r else r) (finite negative' rank').value
    rwa [abs_signed hr, abs_value, abs_sub_units_div] at hle
  refine ⟨rfl, fun z hz => ?_, fun z hz hne hdist => ⟨negative, rank, rfl, ?_⟩⟩
  · obtain ⟨negative', rank', rfl⟩ := exists_finite hz
    rw [hown]
    exact (div_le_div_of_nonneg_right (h.le rank') hunits.le).trans (hother negative' rank')
  · obtain ⟨negative', rank', rfl⟩ := exists_finite hz
    by_cases hrank : rank'.val = rank.val
    · -- The other number is the opposite one. It is as near only to zero.
      have hsame : |(finite negative' rank').value| = |(finite negative rank).value| := by
        rw [abs_value, abs_value, hrank]
      have hopposite := (abs_eq_abs.1 hsame).resolve_left hne
      have hmagnitude : (0 : ℚ) < units rank / unitsPerOne := by
        rw [← abs_value negative rank, abs_pos]
        intro hzero
        exact hne (by rw [hopposite, hzero, neg_zero])
      rw [hown, hopposite, sub_neg_eq_add, value_finite, abs_signed_add hr hmagnitude.le,
        ← abs_sub_units_div] at hdist
      have hr' : r = 0 := eq_zero_of_add_eq_abs_sub hr hmagnitude hdist
      have hzero : IsNearest (units 0) rank := by
        rw [hr', zero_mul] at h
        rwa [units_zero, Nat.cast_zero]
      rw [hzero.unique (isNearest_units 0)]
    · refine h.even rank' hrank (le_antisymm ?_ (h.le rank'))
      have hle := hother negative' rank'
      rw [hdist, hown] at hle
      exact (div_le_div_iff_of_pos_right hunits).1 hle

/-! ## Reading what a text denotes -/

/-- A decimal without a sign is read as the number that it is rounded to. -/
theorem ofUnsigned?_of_decimal (h : Decimal.ofUnsigned? text = some d) (negative : Bool) :
    ofUnsigned? negative text = some (ofDecimal negative d) := by
  rcases Decimal.ofUnsigned?_cases h with hplain | ⟨run, exponent, m, e, rfl, hm, he, rfl⟩
  · obtain ⟨hne, hrun⟩ := Decimal.isNumeralChar_of_ofPlain? hplain
    have hend : ∀ c ∈ ([] : List Char).head?, (c == 'e' || c == 'E') = true := nofun
    rw [← List.append_nil text, Lexeme.ofUnsigned?_run hrun hne negative hend, hplain]
    rfl
  · obtain ⟨hne, hrun⟩ := Decimal.isNumeralChar_of_ofPlain? hm
    have hmark : ∀ c ∈ ('e' :: exponent).head?, (c == 'e' || c == 'E') = true := by
      intro c hc
      obtain rfl := Option.some.inj hc
      rfl
    rw [Lexeme.ofUnsigned?_run hrun hne negative hmark, hm]
    simp only [he]
    rfl

/-- A magnitude is nearest to every number that is not negative. -/
theorem exists_isNearest (hx : 0 ≤ x) : ∃ r, IsNearest x r := by
  have hnum : ((x.num.toNat : ℤ) : ℚ) = x.num := by rw [Int.toNat_of_nonneg (Rat.num_nonneg.2 hx)]
  have hquotient : (x.num.toNat : ℚ) / x.den = x := by
    calc (x.num.toNat : ℚ) / x.den = ((x.num.toNat : ℤ) : ℚ) / x.den := by rw [Int.cast_natCast]
      _ = x.num / x.den := by rw [hnum]
      _ = x := Rat.num_div_den x
  have hnearest := isNearest_nearestRank x.num.toNat x.den_pos
  rw [hquotient] at hnearest
  exact ⟨_, hnearest⟩

/-- Whatever number a text denotes, the text is read as the number with the nearest rank, with its
sign. -/
theorem ofChars?_of_denoted? (h : denoted? text = some v) :
    ∃ r, IsNearest (|v| * unitsPerOne) r ∧
      ofChars? text = some (ofRank (text.head? == some '-') r) := by
  have hnearest (d : Decimal) : ∃ r, IsNearest (d.value * unitsPerOne) r :=
    exists_isNearest (mul_nonneg d.value_nonneg unitsPerOne_cast_pos.le)
  unfold denoted? at h
  split at h
  · obtain ⟨d, hd, rfl⟩ := Option.map_eq_some_iff.1 h
    obtain ⟨r, hr⟩ := hnearest d
    refine ⟨r, ?_, ?_⟩
    · rwa [abs_neg, abs_of_nonneg d.value_nonneg]
    · rw [ofChars?, ofUnsigned?_of_decimal hd, ofDecimal_eq_ofRank hr]
      rfl
  · obtain ⟨d, hd, rfl⟩ := Option.map_eq_some_iff.1 h
    obtain ⟨r, hr⟩ := hnearest d
    obtain ⟨c, rest, rfl, hc⟩ := Decimal.exists_cons_of_ofUnsigned? hd
    refine ⟨r, ?_, ?_⟩
    · rwa [abs_of_nonneg d.value_nonneg]
    · rw [Lexeme.ofChars?_cons hc, ofUnsigned?_of_decimal hd, ofDecimal_eq_ofRank hr,
        Decimal.beginsWithMinus_of_isNumeralChar hc]

/-! ## What the text of a number denotes -/

/-- A plain decimal without digits behind the point. -/
theorem written_numeral (n : Nat) : Written n (numeral n) := by
  have hvalue : PlainDecimal.value ⟨n, [], nofun, nofun⟩ = n := by
    simp [PlainDecimal.value, ofNumeral]
  rw [← hvalue]
  exact .plain ⟨n, [], nofun, nofun⟩

/-- A number that is shown in the notation for significant digits is written. It is below `10 ^ p`
where no exponent follows. -/
theorem written_of_shows {p : Nat} (h : Decimal.Shows p r text) (hr : 0 < r) :
    Written r text ∧ ('e' ∉ text → r < 10 ^ p) := by
  obtain ⟨d, hd⟩ := h
  split_ifs at hd with hscientific
  · obtain ⟨-, hvalue, rfl⟩ := hd
    have hwritten := Written.scientific d (Int.log 10 r)
    rw [hvalue] at hwritten
    exact ⟨hwritten, fun he => absurd (by simp) he⟩
  · obtain ⟨rfl, rfl⟩ := hd
    have hexponent : Int.log 10 d.value + 1 ≤ p := by omega
    refine ⟨.plain d, fun _ => (log_bounds hr).2.trans_le ?_⟩
    rw [← zpow_natCast]
    exact zpow_le_zpow_right₀ (by norm_num) hexponent

/-- The text of a finite number is a magnitude that is written after the sign of the number. The
magnitude is exact or rounded to significant digits, and it is below `2 ^ 63` where no exponent
follows. -/
theorem formatChars_written (negative : Bool) (rank : Fin magnitudes) (precision : Nat) :
    let x := finite negative rank
    ∃ r text, Written r text ∧ ('e' ∉ text → r < 2 ^ 63) ∧
      x.formatChars precision = signedText (x.value < 0) text ∧
      (r = |x.value| ∨ 0 < |x.value| ∧ r = toSignificant (clampPrecision precision) |x.value|) := by
  intro x
  by_cases hinteger : ∃ n : ℤ, x.value = n ∧ |n| < 2 ^ 63
  · obtain ⟨n, hn, hlt⟩ := hinteger
    have habs : |x.value| = n.natAbs := by
      rw [hn, ← Int.cast_abs, Int.abs_eq_natAbs, Int.cast_natCast]
    refine ⟨n.natAbs, numeral n.natAbs, written_numeral _, fun _ => ?_, ?_, .inl habs.symm⟩
    · rw [Int.abs_eq_natAbs] at hlt
      exact_mod_cast hlt
    · rw [formatChars_of_value precision hn hlt, hn, signedNumeral, signedText]
      simp only [Int.cast_lt_zero]
  · have habs : |x.value| = units rank / unitsPerOne := abs_value negative rank
    have hrank : 0 < units rank := by
      by_contra hzero
      rw [Nat.eq_zero_of_not_pos hzero, Nat.cast_zero, zero_div, abs_eq_zero] at habs
      exact hinteger ⟨0, habs, by decide⟩
    have hpos : 0 < |x.value| := habs ▸ magnitude_pos hrank
    have hp : 1 ≤ clampPrecision precision := le_max_left _ _
    have hp' : clampPrecision precision ≤ 17 := max_le (by decide) (min_le_right _ _)
    have hshows : Decimal.Shows (clampPrecision precision)
        (toSignificant (clampPrecision precision) |x.value|)
        (significantText rank (clampPrecision precision)) := by
      rw [habs]
      exact shows_significantText hrank hp
    obtain ⟨hwritten, hbelow⟩ := written_of_shows hshows (toSignificant_pos hp hpos)
    refine ⟨_, _, hwritten, fun he => ?_, formatChars_of_not_integer precision hinteger,
      .inr ⟨hpos, rfl⟩⟩
    calc toSignificant (clampPrecision precision) |x.value|
        < 10 ^ clampPrecision precision := hbelow he
      _ ≤ 10 ^ 17 := pow_le_pow_right₀ (by norm_num) hp'
      _ < 2 ^ 63 := by norm_num

end Calculator.Binary64
