import Mathlib.Data.Rat.Defs
import Mathlib.Algebra.Order.Field.Rat
import Mathlib.Tactic.FieldSimp
import Mathlib.Tactic.Positivity
import Mathlib.Tactic.Ring
import Calculator.Decimal.Significant
import Calculator.Proofs.Decimal.Numeral

/-!
# Decimals as they are shown

A `PlainDecimal` is a whole part and the digits behind the point, of which the last is not zero.
`PlainDecimal.chars` shows it, without a point where no digits follow, and `PlainDecimal.value` is
the number that it denotes. What `withPoint` writes is, once `trimZeros` has cut it, a plain decimal
whose value is the coefficient in units of the last place (`trimZeros_withPoint`).
-/

namespace Calculator

/-- A decimal without an exponent and without zeros that say nothing. -/
structure PlainDecimal where
  /-- The part before the point. -/
  whole : Nat
  /-- The digits behind the point. -/
  fraction : List Char
  /-- Only digits stand behind the point. -/
  isDigit_of_mem : ∀ c ∈ fraction, c.isDigit = true
  /-- The last of them says something. -/
  getLast?_ne : fraction.getLast? ≠ some '0'

namespace PlainDecimal

/-- The text: the numeral of the whole part, and the other digits, if any, after a point. -/
def chars (d : PlainDecimal) : List Char :=
  if d.fraction = [] then numeral d.whole else numeral d.whole ++ '.' :: d.fraction

/-- The number that the text denotes. -/
def value (d : PlainDecimal) : ℚ :=
  d.whole + ofNumeral d.fraction / 10 ^ d.fraction.length

end PlainDecimal

namespace Decimal

/-! ## The digits before and behind the point -/

/-- Digits filled up with zeros to one more than there are places. -/
theorem padded_eq (coefficient places : Nat) :
    ∃ fraction : List Char, fraction.length = places ∧ (∀ c ∈ fraction, c.isDigit = true) ∧
      List.replicate (places + 1 - (numeral coefficient).length) '0' ++ numeral coefficient =
        numeral (coefficient / 10 ^ places) ++ fraction := by
  induction places generalizing coefficient with
  | zero =>
    refine ⟨[], rfl, by simp, ?_⟩
    have hlength := List.length_pos_iff.2 (numeral_ne_nil coefficient)
    rw [Nat.sub_eq_zero_of_le (by omega), Nat.pow_zero, Nat.div_one, List.append_nil]
    rfl
  | succ places ih =>
    -- The last digit is put aside; the others are those of a tenth of the coefficient.
    obtain ⟨fraction, hlength, hdigits, heq⟩ := ih (coefficient / 10)
    have hlast := isDigit_digitChar (coefficient % 10) (Nat.mod_lt _ (by decide))
    have hdiv : coefficient / 10 ^ (places + 1) = coefficient / 10 / 10 ^ places := by
      rw [Nat.pow_succ', Nat.div_div_eq_div_mul]
    refine ⟨fraction ++ [digitChar (coefficient % 10)], by simp [hlength], ?_, ?_⟩
    · exact List.forall_mem_append.2 ⟨hdigits, List.forall_mem_singleton.2 hlast⟩
    rw [hdiv, ← List.append_assoc, ← heq]
    by_cases hsmall : coefficient < 10
    · -- A single digit; all the others are zeros.
      have hzero : numeral (coefficient / 10) = ['0'] := by
        rw [Nat.div_eq_of_lt hsmall]
        exact numeral_of_lt (by decide)
      rw [hzero, numeral_of_lt hsmall, Nat.mod_eq_of_lt hsmall, ← List.replicate_succ']
      rfl
    · rw [numeral_of_ge hsmall, List.length_append, List.length_singleton, Nat.add_sub_add_right,
        List.append_assoc]

/-- A coefficient is its whole part and the digits of the places, with a point between them if there
are places. -/
theorem withPoint_eq (coefficient places : Nat) :
    ∃ fraction : List Char, fraction.length = places ∧ (∀ c ∈ fraction, c.isDigit = true) ∧
      coefficient / 10 ^ places * 10 ^ places + ofNumeral fraction = coefficient ∧
      withPoint coefficient places =
        if places = 0 then numeral coefficient
        else numeral (coefficient / 10 ^ places) ++ '.' :: fraction := by
  obtain ⟨fraction, hlength, hdigits, heq⟩ := padded_eq coefficient places
  have hvalue := congrArg ofNumeral heq
  rw [ofNumeral_append, ofNumeral_append, ofNumeral_replicate_zero, ofNumeral_numeral,
    ofNumeral_numeral, Nat.zero_mul, Nat.zero_add, hlength] at hvalue
  refine ⟨fraction, hlength, hdigits, hvalue.symm, ?_⟩
  unfold withPoint
  dsimp only
  rw [heq]
  split_ifs with hplaces
  · subst hplaces
    rw [List.length_eq_zero_iff.1 hlength, List.append_nil, Nat.pow_zero, Nat.div_one]
  · rw [List.length_append, hlength, Nat.add_sub_cancel, List.take_left, List.drop_left]

/-! ## Cutting the zeros at the end -/

/-- Digits are others and zeros at the end. -/
theorem exists_append_zeros (digits : List Char) :
    ∃ (front : List Char) (count : Nat), digits = front ++ List.replicate count '0' ∧
      front.getLast? ≠ some '0' := by
  induction digits using List.reverseRecOn with
  | nil => exact ⟨[], 0, rfl, by simp⟩
  | append_singleton digits c ih =>
    by_cases hzero : c = '0'
    · obtain ⟨front, count, rfl, hlast⟩ := ih
      exact ⟨front, count + 1, by rw [hzero, List.replicate_succ', List.append_assoc], hlast⟩
    · exact ⟨digits ++ [c], 0, by simp, by simpa using hzero⟩

/-- Without a point nothing is cut. -/
theorem trimZeros_of_isDigit {digits : List Char} (hdigits : ∀ c ∈ digits, c.isDigit = true) :
    trimZeros digits = digits := by
  have hpoint : digits.contains '.' = false := by
    rw [List.contains_eq_mem, decide_eq_false_iff_not]
    intro hmem
    exact absurd (hdigits '.' hmem) (by decide)
  rw [trimZeros, hpoint]
  rfl

/-- A digit is no point. -/
theorem beq_point_of_isDigit {c : Char} (h : c.isDigit = true) : ¬ (c == '.') = true := by
  intro hc
  rw [beq_iff_eq.1 hc] at h
  exact absurd h (by decide)

/-- Behind a point zeros at the end are cut, and the point with them if nothing else follows it. -/
theorem trimZeros_point {front : List Char} (n count : Nat)
    (hfront : ∀ c ∈ front, c.isDigit = true) (hlast : front.getLast? ≠ some '0') :
    trimZeros (numeral n ++ '.' :: (front ++ List.replicate count '0')) =
      PlainDecimal.chars ⟨n, front, hfront, hlast⟩ := by
  have hpoint : (numeral n ++ '.' :: (front ++ List.replicate count '0')).contains '.' = true := by
    simp
  have hreverse : (numeral n ++ '.' :: (front ++ List.replicate count '0')).reverse =
      List.replicate count '0' ++ (front.reverse ++ '.' :: (numeral n).reverse) := by
    simp
  have hzeros : ∀ c ∈ List.replicate count '0', (c == '0') = true := by
    intro c hc
    rw [List.eq_of_mem_replicate hc]
    rfl
  rw [trimZeros, hpoint, if_pos rfl, PlainDecimal.chars, hreverse,
    List.dropWhile_append_of_pos hzeros]
  rcases List.eq_nil_or_concat front with rfl | ⟨front, c, hconcat⟩
  · -- Only zeros followed the point. Before it stands a digit, which stays.
    obtain ⟨c, rest, hrest⟩ := List.exists_cons_of_ne_nil
      (List.reverse_ne_nil_iff.2 (numeral_ne_nil n))
    have hdigit : c.isDigit = true :=
      isDigit_of_mem_numeral c (List.mem_reverse.1 (hrest ▸ List.mem_cons_self))
    rw [List.reverse_nil, List.nil_append, List.dropWhile_cons_of_neg (by decide),
      List.dropWhile_cons_of_pos (by decide), hrest,
      List.dropWhile_cons_of_neg (p := (· == '.')) (beq_point_of_isDigit hdigit), ← hrest,
      List.reverse_reverse, if_pos rfl]
  · -- The last digit of the fraction stays, and the point before it.
    rw [List.concat_eq_append] at hconcat
    subst hconcat
    have hzero : ¬ (c == '0') = true := by simpa using hlast
    have hdigit : c.isDigit = true := hfront c (by simp)
    rw [List.reverse_append, List.reverse_singleton, List.singleton_append,
      List.cons_append, List.dropWhile_cons_of_neg (p := (· == '0')) hzero,
      List.dropWhile_cons_of_neg (p := (· == '.')) (beq_point_of_isDigit hdigit), if_neg (by simp)]
    simp

/-- What is written with a point and cut is a plain decimal with the value of the coefficient in
units of the last place. -/
theorem trimZeros_withPoint (coefficient places : Nat) :
    ∃ d : PlainDecimal, trimZeros (withPoint coefficient places) = d.chars ∧
      d.whole = coefficient / 10 ^ places ∧ d.value = coefficient / 10 ^ places := by
  obtain ⟨fraction, hlength, hdigits, hvalue, heq⟩ := withPoint_eq coefficient places
  obtain ⟨front, count, rfl, hlast⟩ := exists_append_zeros fraction
  have hfront : ∀ c ∈ front, c.isDigit = true :=
    fun c hc => hdigits c (List.mem_append_left _ hc)
  refine ⟨⟨coefficient / 10 ^ places, front, hfront, hlast⟩, ?_, rfl, ?_⟩
  · rw [heq]
    split_ifs with hplaces
    · -- No places, no digits behind a point.
      subst hplaces
      obtain ⟨rfl, -⟩ := List.append_eq_nil_iff.1 (List.length_eq_zero_iff.1 hlength)
      rw [trimZeros_of_isDigit isDigit_of_mem_numeral, PlainDecimal.chars, if_pos rfl,
        Nat.pow_zero, Nat.div_one]
    · exact trimZeros_point _ _ hfront hlast
  · rw [ofNumeral_append, ofNumeral_replicate_zero, Nat.add_zero, List.length_replicate] at hvalue
    rw [List.length_append, List.length_replicate] at hlength
    have hcast : ((coefficient / 10 ^ places * 10 ^ places + ofNumeral front * 10 ^ count : Nat) : ℚ)
        = coefficient := by rw [hvalue]
    push_cast at hcast
    rw [PlainDecimal.value, ← hcast]
    dsimp only
    generalize coefficient / 10 ^ places = whole
    rw [← hlength, pow_add]
    field_simp

end Decimal

end Calculator
