import Calculator.Proofs.Binary64.Halving
import Calculator.Proofs.Statistics.Median

/-!
# Bounds of the median

The median of finite numbers is between the least and the greatest of them, unless there is an even
number of them and the sum of the two in the middle overflows before it is halved
(`median_isWithin_iff`). Then it is infinite, also where all the numbers are the same
(`median_not_isWithin`).
-/

namespace Calculator.Statistics

open Binary64 (infinite finite magnitudes overflowLimit totalPlace)

variable {xs : List Binary64} {a b : Binary64}

/-- A finite number that is between two of the numbers. -/
structure IsWithin (xs : List Binary64) (x : Binary64) : Prop where
  /-- It is finite. -/
  isFinite : x.isFinite = true
  /-- One of the numbers is not above it. -/
  lower : ∃ y ∈ xs, y.value ≤ x.value
  /-- One of the numbers is not below it. -/
  upper : ∃ y ∈ xs, x.value ≤ y.value

/-- Of an odd number of finite numbers the median is one. -/
theorem isWithin_of_odd (hfinite : ∀ x ∈ xs, x.isFinite = true) (hodd : xs.length % 2 = 1) :
    IsWithin xs (median xs) := by
  obtain ⟨x, hx, -⟩ : ∃ x, IsAtPlace totalPlace xs (xs.length / 2) x ∧ _ :=
    existsUnique_isAtPlace (fun _ _ => Binary64.totalPlace_injective) (by omega)
  rw [median_of_odd hodd hx]
  exact ⟨hfinite x hx.mem, ⟨x, hx.mem, le_rfl⟩, ⟨x, hx.mem, le_rfl⟩⟩

/-- Of an even number of finite numbers the median is between the two in the middle if their sum does
not overflow, and infinite otherwise. -/
theorem isWithin_iff_of_even (hfinite : ∀ x ∈ xs, x.isFinite = true) (heven : xs.length % 2 = 0)
    (ha : IsAtPlace totalPlace xs (xs.length / 2 - 1) a)
    (hb : IsAtPlace totalPlace xs (xs.length / 2) b) :
    (IsWithin xs (median xs) ↔ |a.value + b.value| < overflowLimit) ∧
      (overflowLimit ≤ |a.value + b.value| →
        median xs = infinite (decide (a.value + b.value < 0))) := by
  have ha' := hfinite a ha.mem
  have hb' := hfinite b hb.mem
  rw [median_of_even heven ha hb]
  have hinfinite (h : overflowLimit ≤ |a.value + b.value|) :
      (a + b) / 2 = infinite (decide (a.value + b.value < 0)) :=
    Binary64.half_sum_eq_infinite ha' hb' h
  refine ⟨⟨fun h => ?_, fun hlt => ?_⟩, hinfinite⟩
  · by_contra hle
    have hisFinite := h.isFinite
    rw [hinfinite (not_lt.1 hle)] at hisFinite
    cases hisFinite
  · have hle : a.value ≤ b.value :=
      Binary64.value_le_of_totalPlace_le ha' hb' (ha.key_le hb (Nat.sub_le _ _))
    obtain ⟨hisFinite, hlower, hupper⟩ := Binary64.half_sum_between ha' hb' hle hlt
    exact ⟨hisFinite, ⟨a, ha.mem, hlower⟩, ⟨b, hb.mem, hupper⟩⟩

/-- **When the median is between the numbers.** The median of finite numbers is finite and between the
least and the greatest of them exactly if there is an odd number of them, or the sum of the two in the
middle is not rounded to an infinity. If it is, the median is this infinity. -/
theorem median_isWithin_iff (xs : List Binary64) (hne : xs ≠ [])
    (hfinite : ∀ x ∈ xs, x.isFinite = true) :
    (IsWithin xs (median xs) ↔ (xs.length % 2 = 0 → ∀ a b,
      IsAtPlace totalPlace xs (xs.length / 2 - 1) a → IsAtPlace totalPlace xs (xs.length / 2) b →
        |a.value + b.value| < overflowLimit)) ∧
    (xs.length % 2 = 0 → ∀ a b,
      IsAtPlace totalPlace xs (xs.length / 2 - 1) a → IsAtPlace totalPlace xs (xs.length / 2) b →
        overflowLimit ≤ |a.value + b.value| →
          median xs = infinite (decide (a.value + b.value < 0))) := by
  refine ⟨⟨fun h heven a b ha hb => ?_, fun h => ?_⟩, fun heven a b ha hb => ?_⟩
  · exact (isWithin_iff_of_even hfinite heven ha hb).1.1 h
  · rcases Nat.mod_two_eq_zero_or_one xs.length with heven | hodd
    · have hlength : 0 < xs.length := List.length_pos_of_ne_nil hne
      obtain ⟨a, ha, -⟩ : ∃ a, IsAtPlace totalPlace xs (xs.length / 2 - 1) a ∧ _ :=
        existsUnique_isAtPlace (fun _ _ => Binary64.totalPlace_injective) (by omega)
      obtain ⟨b, hb, -⟩ : ∃ b, IsAtPlace totalPlace xs (xs.length / 2) b ∧ _ :=
        existsUnique_isAtPlace (fun _ _ => Binary64.totalPlace_injective) (by omega)
      exact (isWithin_iff_of_even hfinite heven ha hb).1.2 (h heven a b ha hb)
    · exact isWithin_of_odd hfinite hodd
  · exact (isWithin_iff_of_even hfinite heven ha hb).2

/-- The two least positive numbers have a median between them, although half of their sum is no
number. -/
theorem median_isWithin_least :
    let xs := [finite false ⟨2, by decide⟩, finite false ⟨1, by decide⟩]
    xs ≠ [] ∧ (∀ x ∈ xs, x.isFinite = true) ∧ IsWithin xs (median xs) := by
  intro xs
  have hne : xs ≠ [] := List.cons_ne_nil _ _
  have hfinite : ∀ x ∈ xs, x.isFinite = true := by decide
  refine ⟨hne, hfinite, (median_isWithin_iff xs hne hfinite).1.2 fun _ a b ha hb => ?_⟩
  -- Whichever two of them are in the middle, their sum is far below the limit.
  have hsmall : ∀ x ∈ xs, |x.value| ≤ 1 := by
    have hunits (r : Nat) (hr : r ≤ 2) : (Binary64.units r / Binary64.unitsPerOne : ℚ) ≤ 1 := by
      rw [div_le_one Binary64.unitsPerOne_cast_pos]
      have hle : Binary64.units 2 ≤ Binary64.unitsPerOne := by decide +kernel
      exact_mod_cast (Binary64.units_strictMono.monotone hr).trans hle
    simp only [xs, List.forall_mem_cons, Binary64.abs_value]
    exact ⟨hunits 2 (by decide), hunits 1 (by decide), by simp⟩
  have hlimit : (2 : ℚ) < overflowLimit := by
    exact_mod_cast (by decide +kernel : 2 < overflowLimit)
  calc |a.value + b.value| ≤ |a.value| + |b.value| := abs_add_le _ _
    _ ≤ 1 + 1 := add_le_add (hsmall a ha.mem) (hsmall b hb.mem)
    _ < overflowLimit := by linarith

/-- The median of two numbers that are the largest finite one is infinite. -/
theorem median_not_isWithin :
    let x := finite false ⟨magnitudes - 1, by decide⟩
    [x, x] ≠ [] ∧ (∀ y ∈ [x, x], y.isFinite = true) ∧ ¬ IsWithin [x, x] (median [x, x]) := by
  intro x
  have hfinite : ∀ y ∈ [x, x], y.isFinite = true := by simp [x, Binary64.isFinite]
  have hplace (k : Nat) (hk : k < 2) : IsAtPlace totalPlace [x, x] k x :=
    ⟨List.mem_cons_self, by simp [countBelow], by simpa [countAbove] using hk⟩
  have hsum : overflowLimit ≤ |x.value + x.value| := by
    have hle : (overflowLimit * Binary64.unitsPerOne : ℚ) ≤ 2 * Binary64.units (magnitudes - 1) := by
      have h : overflowLimit * Binary64.unitsPerOne ≤ 2 * Binary64.units (magnitudes - 1) := by
        decide +kernel
      exact_mod_cast h
    rw [← two_mul, abs_mul, Binary64.abs_value, abs_two, mul_div_assoc',
      le_div_iff₀ Binary64.unitsPerOne_cast_pos]
    exact hle
  have heven : [x, x].length % 2 = 0 := by simp
  have ha : IsAtPlace totalPlace [x, x] ([x, x].length / 2 - 1) x := hplace _ (by simp)
  have hb : IsAtPlace totalPlace [x, x] ([x, x].length / 2) x := hplace _ (by simp)
  refine ⟨List.cons_ne_nil _ _, hfinite, fun h => hsum.not_gt ?_⟩
  exact (isWithin_iff_of_even hfinite heven ha hb).1.1 h

end Calculator.Statistics
