import Mathlib.Tactic.SplitIfs
import Calculator.Counting.Words

/-!
# Common divisors and multiples

The steps of Euclid's algorithm keep the greatest common divisor (`commonDivisor_eq_gcd`). It divides
the first magnitude, so that the division before the last multiplication leaves no remainder, and
the product is the least common multiple itself (`lcm?_eq`): there is none among the words only if
this multiple is not one of them. On words every remainder has a divisor other than zero, and
magnitudes of signed words are words, also that of the least one (`toNat_abs_eq`).
-/

namespace Calculator.Counting

variable {a b : BitVec 64}

/-- Euclid's algorithm finds the greatest common divisor. -/
theorem commonDivisor_eq_gcd (x y : Nat) : commonDivisor x y = Nat.gcd x y := by
  induction x, y using commonDivisor.induct with
  | case1 x => rw [commonDivisor, Nat.gcd_zero_right]
  | case2 x y ih => rw [commonDivisor, ih, Nat.gcd_comm (y + 1), ← Nat.gcd_rec, Nat.gcd_comm]

/-- The least common multiple, if it is below `2 ^ 64`. -/
theorem lcm?_eq (a b : Int) :
    lcm? a b =
      if Nat.lcm a.natAbs b.natAbs < 2 ^ 64 then some (Nat.lcm a.natAbs b.natAbs) else none := by
  unfold lcm? gcd
  by_cases hzero : a = 0 ∨ b = 0
  · have hlcm : Nat.lcm a.natAbs b.natAbs = 0 := by
      rcases hzero with rfl | rfl
      · exact Nat.lcm_zero_left _
      · exact Nat.lcm_zero_right _
    rw [if_pos hzero, hlcm, if_pos (by decide)]
  · have hproduct : a.natAbs / Nat.gcd a.natAbs b.natAbs * b.natAbs =
        Nat.lcm a.natAbs b.natAbs :=
      Nat.div_mul_right_comm (Nat.gcd_dvd_left _ _) _
    rw [if_neg hzero, commonDivisor_eq_gcd]
    simp only [hproduct, wordLimit]

/-! ## On words -/

/-- The magnitude of a signed word is a word without a sign. -/
theorem toNat_abs_eq (a : BitVec 64) : a.abs.toNat = a.toInt.natAbs := by
  have hlt := a.isLt
  rw [BitVec.toNat_abs, BitVec.msb_eq_decide, BitVec.toInt_eq_toNat_cond]
  simp only [decide_eq_true_iff]
  split_ifs <;> omega

/-- A signed word is zero if its number is. -/
theorem eq_zero_iff_toInt (a : BitVec 64) : a = 0 ↔ a.toInt = 0 := by
  constructor
  · rintro rfl
    rfl
  · exact fun h => BitVec.eq_of_toInt_eq h

/-- On words Euclid's algorithm ends with the result that it has for natural numbers. -/
theorem exists_commonDivisor? (a b : BitVec 64) :
    ∃ c, Words.commonDivisor? a b = some c ∧ c.toNat = commonDivisor a.toNat b.toNat := by
  obtain ⟨x, hx⟩ : ∃ x, a.toNat = x := ⟨_, rfl⟩
  obtain ⟨y, hy⟩ : ∃ y, b.toNat = y := ⟨_, rfl⟩
  induction x, y using commonDivisor.induct generalizing a b with
  | case1 x =>
    rw [Words.commonDivisor?_eq_bind, if_pos (Word.eq_zero_iff.2 hy), hx, hy, commonDivisor]
    exact ⟨a, rfl, hx⟩
  | case2 x y ih =>
    have hne : b ≠ 0 := fun hzero => by
      rw [Word.eq_zero_iff.1 hzero] at hy
      exact Nat.succ_ne_zero y hy.symm
    obtain ⟨rest, hrest, hvalue⟩ := Word.exists_rem? (a := a) (b := b) (by omega)
    rw [hx, hy] at hvalue
    obtain ⟨c, hc, hvalue'⟩ := ih b rest hy hvalue
    rw [hy, hvalue] at hvalue'
    rw [Words.commonDivisor?_eq_bind, if_neg hne, hrest, hx, hy, commonDivisor]
    exact ⟨c, hc, hvalue'⟩

/-- The greatest common divisor of signed words is found. -/
theorem exists_gcd? (a b : BitVec 64) :
    ∃ c, Words.gcd? a b = some c ∧ c.toNat = gcd a.toInt b.toInt := by
  obtain ⟨c, hc, hvalue⟩ := exists_commonDivisor? a.abs b.abs
  rw [toNat_abs_eq, toNat_abs_eq] at hvalue
  exact ⟨c, hc, hvalue⟩

/-- The least common multiple of signed words is found, or it is found that no word holds it. -/
theorem map_lcm? (a b : BitVec 64) :
    (Words.lcm? a b).map (Option.map BitVec.toNat) = some (lcm? a.toInt b.toInt) := by
  obtain ⟨c, hc, hvalue⟩ := exists_gcd? a b
  unfold Words.lcm? lcm?
  simp only [eq_zero_iff_toInt]
  by_cases hzero : a.toInt = 0 ∨ b.toInt = 0
  · rw [if_pos hzero, if_pos hzero]
    rfl
  · rw [if_neg hzero, if_neg hzero, hc]
    -- The divisor is zero for two zeros only.
    have hpos : 0 < c.toNat := by
      rw [hvalue, gcd, commonDivisor_eq_gcd]
      exact Nat.gcd_pos_of_pos_left _ (by omega)
    obtain ⟨part, hpart, hvalue'⟩ := Word.exists_div? (a := a.abs) hpos
    have hproduct := Word.map_mul? part b.abs
    rw [hvalue', hvalue, toNat_abs_eq, toNat_abs_eq] at hproduct
    simp only [Option.bind_eq_bind, Option.bind_some, hpart, Option.pure_def, Option.map_some,
      hproduct]
    rfl

/-! ## Results -/

/-- The number `g` is the greatest common divisor of `x` and `y`. -/
structure IsGreatestCommonDivisor (g x y : Nat) : Prop where
  /-- It divides the first number. -/
  dvd_left : g ∣ x
  /-- It divides the second number. -/
  dvd_right : g ∣ y
  /-- Every common divisor divides it. -/
  dvd_of_dvd : ∀ d, d ∣ x → d ∣ y → d ∣ g
  /-- It is zero for two zeros only. -/
  eq_zero_iff : g = 0 ↔ x = 0 ∧ y = 0

/-- The function finds the greatest common divisor of the magnitudes. -/
theorem isGreatestCommonDivisor_gcd (a b : Int) :
    IsGreatestCommonDivisor (gcd a b) a.natAbs b.natAbs := by
  rw [gcd, commonDivisor_eq_gcd]
  exact {
    dvd_left := Nat.gcd_dvd_left _ _
    dvd_right := Nat.gcd_dvd_right _ _
    dvd_of_dvd := fun _ hx hy => Nat.dvd_gcd hx hy
    eq_zero_iff := Nat.gcd_eq_zero_iff }

/-- **Greatest common divisors and least common multiples of signed words.** The divisor is the
greatest one also for the least word. There is a multiple exactly if the least one is below `2 ^ 64`,
and then it is the least one. No operation on words overflows, and none divides by zero. -/
theorem gcd_lcm_exact (a b : BitVec 64) :
    IsGreatestCommonDivisor (gcd a.toInt b.toInt) a.toInt.natAbs b.toInt.natAbs ∧
      lcm? a.toInt b.toInt =
        (if Nat.lcm a.toInt.natAbs b.toInt.natAbs < 2 ^ 64 then
          some (Nat.lcm a.toInt.natAbs b.toInt.natAbs)
        else none) ∧
      (Words.gcd? a b).map BitVec.toNat = some (gcd a.toInt b.toInt) ∧
      (Words.lcm? a b).map (Option.map BitVec.toNat) = some (lcm? a.toInt b.toInt) := by
  obtain ⟨c, hc, hvalue⟩ := exists_gcd? a b
  refine ⟨isGreatestCommonDivisor_gcd _ _, lcm?_eq _ _, ?_, map_lcm? a b⟩
  rw [hc, Option.map_some, hvalue]

end Calculator.Counting
