import Calculator.Decimal.Shortest
import Calculator.Proofs.Binary64.Reading

/-!
# The shortest text of a number is read back

Of the two neighbours of a magnitude on the grid of 17 significant digits one is no farther away
than half a step of the grid. Steps of this grid are narrower than those between magnitudes
(`isClose_of_grid`), so that neighbour reads back, and the shortest decimal, which is searched for
on coarser grids first, reads back as well (`readsBack_shortest`). Its positional notation is a
plain decimal of the same value, and is read as the number (`ofPlain?_magnitudeText`).
-/

namespace Calculator.Binary64

variable {x w : ℚ} {r : Nat} {d : Decimal}

/-! ## The grids of decimals -/

/-- A decimal reads back to the rank nearest to its value. -/
theorem readsBack_iff : readsBack r d = true ↔ IsNearest (d.value * unitsPerOne) r := by
  obtain ⟨hpos, hvalue⟩ := Decimal.inSteps_value (d.coefficient * unitsPerOne) Nat.one_pos
    (-d.exponent)
  unfold readsBack
  dsimp only
  rw [decide_eq_true_iff, nearestRank_eq_iff hpos, hvalue, Nat.cast_one, div_one, zpow_neg,
    div_inv_eq_mul, Decimal.value, Nat.cast_mul, mul_right_comm]

/-- A neighbour that is found is accepted. -/
theorem accepts_of_nearerNeighbor? {accepts : Decimal → Bool} {num den : Nat} {e : ℤ}
    (h : nearerNeighbor? accepts num den e = some d) : accepts d = true := by
  unfold nearerNeighbor? at h
  dsimp only at h
  split at h
  · rename_i hbelow habove
    cases h
    split_ifs
    · exact hbelow
    · exact habove
  · rename_i hbelow _
    cases h
    exact hbelow
  · rename_i _ habove
    cases h
    exact habove
  · cases h

/-- Where a neighbour is accepted, one is found. -/
theorem nearerNeighbor?_ne_none {accepts : Decimal → Bool} {num den : Nat} {e : ℤ}
    (h : accepts ⟨num / den, e⟩ = true ∨ accepts ⟨num / den + 1, e⟩ = true) :
    nearerNeighbor? accepts num den e ≠ none := by
  unfold nearerNeighbor?
  dsimp only
  split
  · exact Option.some_ne_none _
  · exact Option.some_ne_none _
  · exact Option.some_ne_none _
  · rename_i hbelow habove
    simp [hbelow, habove] at h

/-- What a grid finds reads back. -/
theorem readsBack_of_nearestOnGrid? {e : ℤ} (h : nearestOnGrid? r e = some d) :
    readsBack r d = true := by
  rw [nearestOnGrid?] at h
  exact accepts_of_nearerNeighbor? h

/-- On a grid that is finer than the magnitudes, what is within half a step of a magnitude is close
to it. -/
theorem isClose_of_grid (hw : w * 2 ^ 53 < units r) (hx : |x - units r| ≤ w / 2) : IsClose x r := by
  obtain ⟨hlow, hhigh⟩ := abs_le.1 hx
  refine ⟨?_, fun p hp => ?_⟩
  · have hlt : (units r : ℚ) < units (r + 1) := units_cast_lt (Nat.lt_succ_self r)
    have hstep : (units (r + 1) : ℚ) ≤ 2 ^ 53 * step r := by exact_mod_cast units_succ_le r
    linarith
  · subst hp
    have hstep : (units (p + 1) : ℚ) ≤ 2 ^ 53 * step p := by exact_mod_cast units_succ_le p
    linarith

/-- One of the neighbours of a quotient is at most one half away. -/
theorem exists_near (num : Nat) {den : Nat} (hden : 0 < den) :
    |((num / den : Nat) : ℚ) - num / den| ≤ 1 / 2 ∨
      |((num / den + 1 : Nat) : ℚ) - num / den| ≤ 1 / 2 := by
  have hden' : (0 : ℚ) < den := by exact_mod_cast hden
  have hdiv : ((num / den : Nat) : ℚ) * den + (num % den : Nat) = num := by
    exact_mod_cast Nat.div_add_mod' num den
  have hquot : (num / den : ℚ) = (num / den : Nat) + (num % den : Nat) / den := by
    rw [← hdiv, add_div, mul_div_cancel_right₀ _ hden'.ne']
  have hnonneg : (0 : ℚ) ≤ (num % den : Nat) / den := by positivity
  have hlt : ((num % den : Nat) / den : ℚ) < 1 := by
    rw [div_lt_one hden']
    exact_mod_cast Nat.mod_lt num hden
  rw [hquot, Nat.cast_succ]
  generalize ((num / den : Nat) : ℚ) = q
  generalize ((num % den : Nat) / den : ℚ) = t at hnonneg hlt ⊢
  -- The remainder lies in the lower half of a step or in the upper one.
  rcases le_total t (1 / 2) with h | h
  · exact .inl (abs_le.2 ⟨by linarith, by linarith⟩)
  · exact .inr (abs_le.2 ⟨by linarith, by linarith⟩)

/-- A multiple of a step finer than the magnitudes that is at most half a step away reads back. -/
theorem readsBack_of_near {c : Nat} {e : ℤ} (hfine : (10 : ℚ) ^ e * unitsPerOne * 2 ^ 53 < units r)
    (h : |(c : ℚ) - units r / unitsPerOne / 10 ^ e| ≤ 1 / 2) : readsBack r ⟨c, e⟩ = true := by
  have hunit : (0 : ℚ) < unitsPerOne := by exact_mod_cast unitsPerOne_pos
  rw [readsBack_iff]
  refine (isClose_of_grid hfine ?_).isNearest
  generalize (unitsPerOne : ℚ) = u at hunit h ⊢
  have hpos : 0 < 10 ^ e * u := mul_pos (zpow_pos (by norm_num) e) hunit
  have hdist : Decimal.value ⟨c, e⟩ * u - units r = 10 ^ e * u * (c - units r / u / 10 ^ e) := by
    rw [Decimal.value]
    field_simp
  rw [hdist, abs_mul, abs_of_pos hpos]
  calc 10 ^ e * u * |(c : ℚ) - units r / u / 10 ^ e|
      ≤ 10 ^ e * u * (1 / 2) := mul_le_mul_of_nonneg_left h hpos.le
    _ = 10 ^ e * u / 2 := mul_one_div _ _

/-- On a grid that is finer than the magnitudes a decimal is found. -/
theorem nearestOnGrid?_ne_none {e : ℤ}
    (hfine : (10 : ℚ) ^ e * unitsPerOne * 2 ^ 53 < units r) : nearestOnGrid? r e ≠ none := by
  obtain ⟨hpos, hvalue⟩ := Decimal.inSteps_value (units r) unitsPerOne_pos e
  have hnear := exists_near (Decimal.inSteps (units r) unitsPerOne e).1 hpos
  rw [hvalue] at hnear
  rw [nearestOnGrid?]
  exact nearerNeighbor?_ne_none (hnear.imp (readsBack_of_near hfine) (readsBack_of_near hfine))

/-! ## The shortest decimal -/

/-- Steps of 17 significant digits are finer than the magnitudes. -/
theorem seventeen_digits_fine (hr : 0 < r) :
    (10 : ℚ) ^ (Decimal.leadingExponent (units r) unitsPerOne - (16 : Nat)) * unitsPerOne * 2 ^ 53 <
      units r := by
  have hunit : (0 : ℚ) < unitsPerOne := by exact_mod_cast unitsPerOne_pos
  have hunits : (0 : ℚ) < units r := by exact_mod_cast units_pos hr
  obtain ⟨hlead, -⟩ := Decimal.leadingExponent_bounds (units_pos hr) unitsPerOne_pos
  rw [le_div_iff₀ hunit] at hlead
  rw [zpow_sub₀ (by norm_num), zpow_natCast]
  generalize (10 : ℚ) ^ Decimal.leadingExponent (units r) unitsPerOne = p at hlead ⊢
  generalize (unitsPerOne : ℚ) = u at hlead ⊢
  generalize (units r : ℚ) = v at hlead hunits ⊢
  calc p / 10 ^ 16 * u * 2 ^ 53 = p * u * (2 ^ 53 / 10 ^ 16) := by ring
    _ ≤ v * (2 ^ 53 / 10 ^ 16) := mul_le_mul_of_nonneg_right hlead (by norm_num)
    _ < v := by
      rw [mul_lt_iff_lt_one_right hunits]
      norm_num

/-- The shortest decimal of a magnitude reads back. -/
theorem readsBack_shortest (hr : 0 < r) : readsBack r (shortest r) = true := by
  have hfine := nearestOnGrid?_ne_none (seventeen_digits_fine hr)
  unfold shortest
  dsimp only
  generalize Decimal.leadingExponent (units r) unitsPerOne = lead at hfine ⊢
  cases hfind : (List.range 17).findSome? fun places : Nat => nearestOnGrid? r (lead - places) with
  | none =>
    -- The last grid that is searched has 17 digits.
    rw [List.findSome?_eq_none_iff] at hfind
    exact absurd (hfind 16 (List.mem_range.2 (by decide))) hfine
  | some d =>
    obtain ⟨places, -, hd⟩ := List.exists_of_findSome?_eq_some hfind
    exact readsBack_of_nearestOnGrid? hd

/-! ## The text of a magnitude -/

/-- The text of a magnitude is made of digits and points. -/
theorem isNumeralChar_of_mem_magnitudeText (r : Nat) :
    ∀ c ∈ magnitudeText r, isNumeralChar c = true := by
  unfold magnitudeText
  split_ifs
  · exact List.forall_mem_singleton.2 rfl
  · exact Decimal.isNumeralChar_of_mem_positional _

/-- The text of a magnitude is not empty. -/
theorem magnitudeText_ne_nil (r : Nat) : magnitudeText r ≠ [] := by
  unfold magnitudeText
  split_ifs
  · exact List.cons_ne_nil _ _
  · exact Decimal.positional_ne_nil _

/-- The text of a finite magnitude is read as the number with this magnitude. -/
theorem ofPlain?_magnitudeText (rank : Fin magnitudes) :
    ofPlain? (magnitudeText rank) = some (.finite false rank) := by
  have hread : ∃ d, Decimal.ofPlain? (magnitudeText rank) = some d ∧
      IsNearest (d.value * unitsPerOne) rank := by
    unfold magnitudeText
    split_ifs with hzero
    · have hvalue : Decimal.value ⟨ofNumeral ['0'], 0⟩ * unitsPerOne = units rank := by
        have hcoefficient : ofNumeral ['0'] = 0 := rfl
        rw [hzero, units_zero, Decimal.value, hcoefficient, Nat.cast_zero, zero_mul, zero_mul]
      refine ⟨_, Decimal.ofPlain?_digits (List.forall_mem_singleton.2 rfl)
        (List.cons_ne_nil _ _), ?_⟩
      rw [hvalue]
      exact isNearest_units rank
    -- Only the value of what is read matters.
    · obtain ⟨d, hd, hvalue⟩ := Decimal.ofPlain?_positional (shortest rank)
      refine ⟨d, hd, ?_⟩
      rw [hvalue, ← readsBack_iff]
      exact readsBack_shortest (Nat.pos_of_ne_zero hzero)
  obtain ⟨d, hd, hnear⟩ := hread
  rw [ofPlain?, hd, Option.map_some, ofDecimal_eq_ofRank hnear, ofRank, dif_pos rank.isLt]

end Calculator.Binary64
