import Calculator.Natural

/-!
# The nearest integer

What `roundHalfEven` returns is at most one half away from the quotient, on either side
(`roundHalfEven_mul_le`, `le_roundHalfEven_mul`), and it is even where it is just one half away.
-/

namespace Calculator

variable {num den : Nat}

/-- The nearest integer is the quotient or the one after it, by which half of the divisor the
remainder lies in. -/
theorem roundHalfEven_cases (num den : Nat) :
    (roundHalfEven num den = num / den ∧ 2 * (num % den) ≤ den ∧
        (2 * (num % den) = den → roundHalfEven num den % 2 = 0)) ∨
      (roundHalfEven num den = num / den + 1 ∧ den ≤ 2 * (num % den) ∧
        (2 * (num % den) = den → roundHalfEven num den % 2 = 0)) := by
  unfold roundHalfEven
  dsimp only
  split
  · exact .inl ⟨rfl, by omega, by omega⟩
  · split
    · exact .inr ⟨rfl, by omega, by omega⟩
    · rcases Nat.mod_two_eq_zero_or_one (num / den) with heven | hodd
      · exact .inl ⟨by omega, by omega, by omega⟩
      · exact .inr ⟨by omega, by omega, by omega⟩

/-- The quotient is at most one half above its nearest integer. -/
theorem le_roundHalfEven_mul (num : Nat) (hden : 0 < den) :
    2 * num ≤ 2 * (roundHalfEven num den * den) + den ∧
      (2 * num = 2 * (roundHalfEven num den * den) + den → roundHalfEven num den % 2 = 0) := by
  have hdiv : num / den * den + num % den = num := Nat.div_add_mod' num den
  rcases roundHalfEven_cases num den with ⟨hq, hr, heven⟩ | ⟨hq, hr, heven⟩
  · have hmul : roundHalfEven num den * den = num / den * den := by rw [hq]
    exact ⟨by omega, fun h => heven (by omega)⟩
  · have hmul : roundHalfEven num den * den = num / den * den + den := by rw [hq, Nat.succ_mul]
    have hmod : num % den < den := Nat.mod_lt num hden
    exact ⟨by omega, fun h => heven (by omega)⟩

/-- The quotient is at most one half below its nearest integer. -/
theorem roundHalfEven_mul_le (num den : Nat) :
    2 * (roundHalfEven num den * den) ≤ 2 * num + den ∧
      (2 * (roundHalfEven num den * den) = 2 * num + den → roundHalfEven num den % 2 = 0) := by
  have hdiv : num / den * den + num % den = num := Nat.div_add_mod' num den
  rcases roundHalfEven_cases num den with ⟨hq, hr, heven⟩ | ⟨hq, hr, heven⟩
  · have hmul : roundHalfEven num den * den = num / den * den := by rw [hq]
    exact ⟨by omega, fun h => heven (by omega)⟩
  · have hmul : roundHalfEven num den * den = num / den * den + den := by rw [hq, Nat.succ_mul]
    exact ⟨by omega, fun h => heven (by omega)⟩

end Calculator
