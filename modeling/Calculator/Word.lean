import Calculator.Natural

/-!
# Arithmetic of words

A word is a natural number in a fixed number of bits. An operation on words has a result only if the
word can hold the exact one: no sum is carried out of the word, no difference goes below zero, and
nothing is divided by zero.
-/

namespace Calculator.Word

variable {w : Nat} {a b c : BitVec w}

/-- The sum, if it does not overflow. -/
def add? (a b : BitVec w) : Option (BitVec w) :=
  if a.uaddOverflow b then none else some (a + b)

/-- The difference, if it is not below zero. -/
def sub? (a b : BitVec w) : Option (BitVec w) :=
  if a.usubOverflow b then none else some (a - b)

/-- The product, if it does not overflow. -/
def mul? (a b : BitVec w) : Option (BitVec w) :=
  if a.umulOverflow b then none else some (a * b)

/-- The quotient, if the divisor is not zero. -/
def div? (a b : BitVec w) : Option (BitVec w) :=
  if b = 0 then none else some (a / b)

/-- The remainder, if the divisor is not zero. -/
def rem? (a b : BitVec w) : Option (BitVec w) :=
  if b = 0 then none else some (a % b)

/-- A word is zero if its number is. -/
theorem eq_zero_iff : a = 0 ↔ a.toNat = 0 :=
  BitVec.toNat_eq.trans (by simp)

/-- A sum that the word can hold is exact. -/
theorem exists_add? (h : a.toNat + b.toNat < 2 ^ w) :
    ∃ c, add? a b = some c ∧ c.toNat = a.toNat + b.toNat := by
  have hover : ¬ a.uaddOverflow b = true := by
    simp [BitVec.uaddOverflow, h]
  exact ⟨a + b, if_neg hover, BitVec.toNat_add_of_not_uaddOverflow hover⟩

/-- A sum that there is is exact. -/
theorem toNat_of_add? (h : add? a b = some c) : c.toNat = a.toNat + b.toNat := by
  unfold add? at h
  by_cases hover : a.uaddOverflow b = true
  · rw [if_pos hover] at h
    cases h
  · rw [if_neg hover, Option.some.injEq] at h
    rw [← h, BitVec.toNat_add_of_not_uaddOverflow hover]

/-- There is no sum that the word cannot hold. -/
theorem add?_eq_none (h : 2 ^ w ≤ a.toNat + b.toNat) : add? a b = none :=
  if_pos (decide_eq_true h)

/-- A sum that the word can hold is exact, and there is no other. -/
theorem map_add? (a b : BitVec w) :
    (add? a b).map BitVec.toNat =
      if a.toNat + b.toNat < 2 ^ w then some (a.toNat + b.toNat) else none := by
  by_cases h : a.toNat + b.toNat < 2 ^ w
  · obtain ⟨c, hc, hvalue⟩ := exists_add? h
    rw [hc, if_pos h, Option.map_some, hvalue]
  · rw [add?_eq_none (Nat.not_lt.1 h), if_neg h, Option.map_none]

/-- A difference that is not below zero is exact. -/
theorem exists_sub? (h : b.toNat ≤ a.toNat) :
    ∃ c, sub? a b = some c ∧ c.toNat = a.toNat - b.toNat := by
  have hover : ¬ a.usubOverflow b = true := by
    simp [BitVec.usubOverflow, h]
  exact ⟨a - b, if_neg hover, BitVec.toNat_sub_of_not_usubOverflow hover⟩

/-- A product that the word can hold is exact, and there is no other. -/
theorem map_mul? (a b : BitVec w) :
    (mul? a b).map BitVec.toNat =
      if a.toNat * b.toNat < 2 ^ w then some (a.toNat * b.toNat) else none := by
  unfold mul?
  by_cases h : a.toNat * b.toNat < 2 ^ w
  · have hover : ¬ a.umulOverflow b = true := by
      simp [BitVec.umulOverflow, h]
    rw [if_neg hover, if_pos h, Option.map_some, BitVec.toNat_mul_of_not_umulOverflow hover]
  · have hover : a.umulOverflow b = true := decide_eq_true (Nat.not_lt.1 h)
    rw [if_pos hover, if_neg h, Option.map_none]

/-- A quotient by anything but zero is exact. -/
theorem exists_div? (h : 0 < b.toNat) :
    ∃ c, div? a b = some c ∧ c.toNat = a.toNat / b.toNat := by
  have hne : b ≠ 0 := fun hzero => absurd (eq_zero_iff.1 hzero) (Nat.pos_iff_ne_zero.1 h)
  exact ⟨a / b, if_neg hne, BitVec.toNat_udiv⟩

/-- A remainder by anything but zero is exact. -/
theorem exists_rem? (h : 0 < b.toNat) :
    ∃ c, rem? a b = some c ∧ c.toNat = a.toNat % b.toNat := by
  have hne : b ≠ 0 := fun hzero => absurd (eq_zero_iff.1 hzero) (Nat.pos_iff_ne_zero.1 h)
  exact ⟨a % b, if_neg hne, BitVec.toNat_umod⟩

/-- A remainder that there is is smaller than the divisor. -/
theorem toNat_lt_of_rem? (h : rem? a b = some c) : c.toNat < b.toNat := by
  unfold rem? at h
  by_cases hzero : b = 0
  · rw [if_pos hzero] at h
    cases h
  · rw [if_neg hzero, Option.some.injEq] at h
    rw [← h, BitVec.toNat_umod]
    exact Nat.mod_lt _ (Nat.pos_iff_ne_zero.2 fun hnat => hzero (eq_zero_iff.2 hnat))

end Calculator.Word
