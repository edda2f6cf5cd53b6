import Mathlib.Data.Nat.Prime.Basic
import Calculator.Counting.Words

/-!
# The search for a divisor

The search tries the odd numbers from 3 on, as long as their square is at most the number. It finds
none exactly if no odd number in this range divides the number (`noOddDivisor_eq_true_iff`), and a
number that is not prime has its least divisor in this range. On words the test
`divisor ≤ n / divisor` keeps every divisor that is tried below `2 ^ 32`, so the next one is a word as
well (`noOddDivisor?_eq`).
-/

namespace Calculator.Counting

variable {n divisor : Nat}

/-- A divisor is at most the quotient by it if its square is at most the number. -/
theorem le_div_iff_mul_self_le (h : 0 < divisor) :
    divisor ≤ n / divisor ↔ divisor * divisor ≤ n :=
  Nat.le_div_iff_mul_le h

/-- The search succeeds if no number from `divisor` on, in steps of two and up to the square root,
divides `n`. -/
theorem noOddDivisor_eq_true_iff (hpos : 0 < divisor) :
    noOddDivisor n divisor = true ↔
      ∀ d, divisor ≤ d → d % 2 = divisor % 2 → d * d ≤ n → ¬ d ∣ n := by
  induction divisor using noOddDivisor.induct n with
  | case1 divisor hle hzero =>
    rw [noOddDivisor, dif_pos hle, if_pos hzero]
    have hsquare := (le_div_iff_mul_self_le hpos).1 hle.2
    refine iff_of_false Bool.false_ne_true fun hall => ?_
    exact hall divisor le_rfl rfl hsquare (Nat.dvd_of_mod_eq_zero hzero)
  | case2 divisor hle hrest ih =>
    rw [noOddDivisor, dif_pos hle, if_neg hrest, ih (by omega)]
    constructor
    · intro hall d hd hparity hsquare
      rcases Nat.eq_or_lt_of_le hd with rfl | hlt
      · exact fun hdvd => hrest (Nat.mod_eq_zero_of_dvd hdvd)
      · -- A larger number of the same parity is at least two larger.
        exact hall d (by omega) (by omega) hsquare
    · intro hall d hd hparity hsquare
      exact hall d (by omega) (by omega) hsquare
  | case3 divisor hnot =>
    rw [noOddDivisor, dif_neg hnot]
    refine iff_of_true rfl fun d hd _ hsquare => ?_
    have hlarge : ¬ divisor * divisor ≤ n := fun h =>
      hnot ⟨hpos, (le_div_iff_mul_self_le hpos).2 h⟩
    exact absurd ((Nat.mul_le_mul hd hd).trans hsquare) hlarge

/-- A number is prime if the tests of the parity and of the odd divisors say so. -/
theorem isPrime_iff_prime (n : Nat) : isPrime n = true ↔ n.Prime := by
  unfold isPrime
  split_ifs with hsmall heven
  · exact iff_of_false not_false fun hprime => absurd hprime.two_le (by omega)
  · rw [decide_eq_true_iff]
    constructor
    · rintro rfl
      exact Nat.prime_two
    · exact fun hprime => hprime.eq_one_or_self_of_dvd 2 (Nat.dvd_of_mod_eq_zero heven)
        |>.resolve_left (by decide) |>.symm
  · rw [noOddDivisor_eq_true_iff (by decide), Nat.prime_def_le_sqrt]
    constructor
    · refine fun hall => ⟨by omega, fun d htwo hsqrt hdvd => ?_⟩
      -- A divisor of an odd number is odd.
      have hodd : d % 2 = 1 := by
        by_contra hne
        have : 2 ∣ n := (Nat.dvd_of_mod_eq_zero (by omega)).trans hdvd
        omega
      exact hall d (by omega) hodd (Nat.le_sqrt.1 hsqrt) hdvd
    · exact fun ⟨_, hall⟩ d hd _ hsquare => hall d (by omega) (Nat.le_sqrt.2 hsquare)

/-! ## The search on words -/

/-- One step of the search on words makes the same tests as one among natural numbers. -/
theorem noOddDivisor?_eq_ite {n divisor : BitVec 64} (hpos : 0 < divisor.toNat) :
    Words.noOddDivisor? n divisor =
      if divisor.toNat ≤ n.toNat / divisor.toNat then
        if n.toNat % divisor.toNat = 0 then some false
        else (Word.add? divisor 2).bind (Words.noOddDivisor? n)
      else some true := by
  obtain ⟨quotient, hquotient, hvalue⟩ := Word.exists_div? (a := n) hpos
  obtain ⟨rest, hrest, hvalue'⟩ := Word.exists_rem? (a := n) hpos
  have hzero : rest = 0 ↔ n.toNat % divisor.toNat = 0 := by
    rw [← hvalue', Word.eq_zero_iff]
  rw [Words.noOddDivisor?_eq_bind, hquotient, hrest]
  simp only [Option.bind_some, BitVec.le_def, hvalue, hzero]

/-- The search on words ends, and it finds what the search among natural numbers finds. -/
theorem noOddDivisor?_eq {n divisor : BitVec 64} (hpos : 0 < divisor.toNat) :
    Words.noOddDivisor? n divisor = some (noOddDivisor n.toNat divisor.toNat) := by
  obtain ⟨m, hm⟩ : ∃ m, divisor.toNat = m := ⟨_, rfl⟩
  induction m using noOddDivisor.induct n.toNat generalizing divisor with
  | case1 m hle hzero =>
    subst hm
    rw [noOddDivisor?_eq_ite hpos, noOddDivisor, dif_pos hle, if_pos hzero, if_pos hle.2,
      if_pos hzero]
  | case2 m hle hrest ih =>
    subst hm
    -- The square of the divisor is a word, so that the divisor has half as many bits.
    have hsquare : divisor.toNat * divisor.toNat < 2 ^ 64 :=
      ((le_div_iff_mul_self_le hpos).1 hle.2).trans_lt n.isLt
    have hsmall : divisor.toNat < 2 ^ 32 := by
      by_contra hlarge
      have := Nat.mul_le_mul (Nat.not_lt.1 hlarge) (Nat.not_lt.1 hlarge)
      omega
    have htwo : (2 : BitVec 64).toNat = 2 := rfl
    obtain ⟨next, hnext, hvalue⟩ := Word.exists_add? (a := divisor) (b := 2) (by omega)
    rw [htwo] at hvalue
    rw [noOddDivisor?_eq_ite hpos, noOddDivisor, dif_pos hle, if_neg hrest, if_pos hle.2,
      if_neg hrest, hnext, Option.bind_some, ih (by omega) hvalue, hvalue]
  | case3 m hnot =>
    subst hm
    have hlarge : ¬ divisor.toNat ≤ n.toNat / divisor.toNat := fun h => hnot ⟨hpos, h⟩
    rw [noOddDivisor?_eq_ite hpos, noOddDivisor, dif_neg hnot, if_neg hlarge]

/-- The whole test on words ends with the result of the test of natural numbers. -/
theorem isPrime?_eq (n : BitVec 64) : Words.isPrime? n = some (isPrime n.toNat) := by
  have htwo : (2 : BitVec 64).toNat = 2 := rfl
  obtain ⟨rest, hrest, hvalue⟩ := Word.exists_rem? (a := n) (b := 2) (by decide)
  have hzero : rest = 0 ↔ n.toNat % 2 = 0 := by
    rw [← htwo, ← hvalue, Word.eq_zero_iff]
  have hself : n = 2 ↔ n.toNat = 2 := BitVec.toNat_eq
  rw [Words.isPrime?, isPrime, hrest, noOddDivisor?_eq (by decide)]
  simp only [Option.bind_eq_bind, Option.bind_some, Option.pure_def, BitVec.lt_def, htwo, hzero,
    hself]
  split_ifs <;> rfl

/-- **Which words are prime.** The search ends without an overflow or a division by zero, with the
result of the search among natural numbers: a number is found to be prime exactly if it is at least 2
and no number but 1 and itself divides it. -/
theorem isPrime_exact (n : BitVec 64) :
    Words.isPrime? n = some (isPrime n.toNat) ∧
      (isPrime n.toNat = true ↔ 2 ≤ n.toNat ∧ ∀ d, d ∣ n.toNat → d = 1 ∨ d = n.toNat) :=
  ⟨isPrime?_eq n, (isPrime_iff_prime n.toNat).trans Nat.prime_def⟩

end Calculator.Counting
