import Mathlib.Data.List.Induction
import Calculator.Decimal.Basic

/-!
# Numerals denote their numbers

`ofNumeral` reads a numeral of two parts by shifting the first part by the length of the second
(`ofNumeral_append`), and so it reads back what `numeral` writes (`ofNumeral_numeral`), whatever
zeros stand before it. `digitCount` is the least power of ten above a number.
-/

namespace Calculator

variable {n : Nat}

/-! ## Digits -/

/-- What stands for a number below ten is a digit. -/
theorem isDigit_digitChar : ∀ n < 10, (digitChar n).isDigit = true := by decide

/-- A digit stands for its number. -/
theorem digitChar_sub : ∀ n < 10, (digitChar n).toNat - '0'.toNat = n := by decide

/-! ## Numerals -/

/-- A numeral goes on with one digit. -/
theorem ofNumeral_append_singleton (digits : List Char) (c : Char) :
    ofNumeral (digits ++ [c]) = 10 * ofNumeral digits + (c.toNat - '0'.toNat) := by
  rw [ofNumeral, List.foldl_append]
  rfl

/-- The first part of a numeral is shifted by the length of the second. -/
theorem ofNumeral_append (first second : List Char) :
    ofNumeral (first ++ second) = ofNumeral first * 10 ^ second.length + ofNumeral second := by
  induction second using List.reverseRecOn with
  | nil => simp [ofNumeral]
  | append_singleton second c ih =>
    rw [← List.append_assoc, ofNumeral_append_singleton, ih, ofNumeral_append_singleton,
      List.length_append, List.length_singleton, Nat.pow_succ, Nat.mul_add, Nat.add_assoc]
    congr 1
    rw [Nat.mul_left_comm, Nat.mul_comm 10, ← Nat.mul_assoc]

/-- Zeros are nothing. -/
@[simp] theorem ofNumeral_replicate_zero (n : Nat) : ofNumeral (List.replicate n '0') = 0 := by
  induction n with
  | zero => rfl
  | succ n ih =>
    rw [List.replicate_succ', ofNumeral_append_singleton, ih]
    rfl

/-- A numeral of one digit. -/
theorem numeral_of_lt (h : n < 10) : numeral n = [digitChar n] := by
  rw [numeral, if_pos h]

/-- A numeral of more digits ends with the last one. -/
theorem numeral_of_ge (h : ¬ n < 10) :
    numeral n = numeral (n / 10) ++ [digitChar (n % 10)] := by
  rw [numeral, if_neg h]

/-- A numeral is read back. -/
@[simp] theorem ofNumeral_numeral (n : Nat) : ofNumeral (numeral n) = n := by
  induction n using numeral.induct with
  | case1 n h =>
    rw [numeral_of_lt h, ← List.nil_append [digitChar n], ofNumeral_append_singleton,
      digitChar_sub n h]
    exact Nat.zero_add n
  | case2 n h ih =>
    rw [numeral_of_ge h, ofNumeral_append_singleton, ih, digitChar_sub _ (Nat.mod_lt n (by decide))]
    omega

/-- A numeral is made of digits. -/
theorem isDigit_of_mem_numeral : ∀ c ∈ numeral n, c.isDigit = true := by
  induction n using numeral.induct with
  | case1 n h =>
    rw [numeral_of_lt h]
    simpa using isDigit_digitChar n h
  | case2 n h ih =>
    rw [numeral_of_ge h]
    intro c hc
    rcases List.mem_append.1 hc with hc | hc
    · exact ih c hc
    · obtain rfl := List.mem_singleton.1 hc
      exact isDigit_digitChar _ (Nat.mod_lt n (by decide))

/-- A numeral has a digit. -/
theorem numeral_ne_nil (n : Nat) : numeral n ≠ [] := by
  by_cases h : n < 10
  · rw [numeral_of_lt h]
    exact List.cons_ne_nil _ _
  · rw [numeral_of_ge h]
    exact List.append_ne_nil_of_right_ne_nil _ (List.cons_ne_nil _ _)

/-- A numeral of more digits does not begin with a zero. -/
theorem eq_nil_of_numeral_eq_cons_zero {rest : List Char} (h : numeral n = '0' :: rest) :
    rest = [] := by
  induction n using numeral.induct generalizing rest with
  | case1 n hn =>
    rw [numeral_of_lt hn] at h
    exact (List.cons.inj h).2.symm
  | case2 n hn ih =>
    obtain ⟨c, front, hfront⟩ := List.exists_cons_of_ne_nil (numeral_ne_nil (n / 10))
    rw [numeral_of_ge hn, hfront, List.cons_append] at h
    obtain ⟨rfl, -⟩ := List.cons.inj h
    -- The front would be the numeral of zero, but the number has more than one digit.
    have hzero : n / 10 = 0 := by
      rw [← ofNumeral_numeral (n / 10), hfront, ih hfront]
      rfl
    omega

/-! ## The number of digits -/

/-- A number is below the power of ten with as many zeros as it has digits. -/
theorem lt_pow_digitCount (n : Nat) : n < 10 ^ digitCount n := by
  induction n using digitCount.induct with
  | case1 => exact Nat.pow_pos (by decide)
  | case2 n h ih =>
    rw [digitCount, if_neg h, Nat.pow_succ]
    omega

/-- It is not below a smaller power of ten. -/
theorem pow_digitCount_le (h : n ≠ 0) : 10 ^ (digitCount n - 1) ≤ n := by
  induction n using digitCount.induct with
  | case1 => exact absurd rfl h
  | case2 n h ih =>
    rw [digitCount, if_neg h, Nat.add_sub_cancel]
    by_cases hn : n / 10 = 0
    · rw [hn, digitCount, if_pos rfl]
      omega
    · have hle := ih hn
      have hpos : digitCount (n / 10) ≠ 0 := by
        rw [digitCount, if_neg hn]
        exact Nat.succ_ne_zero _
      obtain ⟨m, hm⟩ := Nat.exists_eq_succ_of_ne_zero hpos
      rw [hm, Nat.succ_sub_one] at hle
      rw [hm, Nat.pow_succ]
      omega

/-- A number other than zero has a digit. -/
theorem digitCount_pos (h : n ≠ 0) : 0 < digitCount n := by
  rw [digitCount, if_neg h]
  exact Nat.succ_pos _

end Calculator
