import Mathlib.Data.Nat.Choose.Basic
import Calculator.Counting.Words
import Calculator.Proofs.Binary64.Natural

/-!
# Products of consecutive numbers

Binomial coefficients and numbers of arrangements are formed step by step. A step leaves an infinity
as it is, so that stopping at an infinity gives the result of all steps (`choose_eq_foldl`,
`productFrom_eq_foldl`). On words every factor is found without an overflow or a difference below
zero (`combination?_eq`), but for one case: the first factor of no arrangement of as many things as a
word can count would be one more than that (`permutation?_eq`).
-/

namespace Calculator.Counting

variable {α β : Type} {x : Binary64} {rest first k count : Nat}

/-! ## Steps -/

/-- The step `k` of a binomial coefficient. -/
def chooseStep (rest : Nat) (x : Binary64) (k : Nat) : Binary64 :=
  x * .ofNat (rest + k) / .ofNat k

/-- A step of a product. -/
def productStep (x : Binary64) (k : Nat) : Binary64 := x * .ofNat k

/-- An infinite number is one of the two infinities. -/
theorem exists_infinite (h : x.isInfinite = true) : ∃ negative, x = .infinite negative := by
  cases x with
  | nan => cases h
  | infinite negative => exact ⟨negative, rfl⟩
  | finite => cases h

/-- A binomial coefficient that is infinite stays so. -/
theorem choose_of_isInfinite (h : x.isInfinite = true) : choose rest x k count = x := by
  cases count with
  | zero => rfl
  | succ count => exact if_pos h

/-- A product that is infinite stays so. -/
theorem productFrom_of_isInfinite (h : x.isInfinite = true) : productFrom x first count = x := by
  cases count with
  | zero => rfl
  | succ count => exact if_pos h

/-- A step of a binomial coefficient leaves an infinity as it is. -/
theorem chooseStep_of_isInfinite (h : x.isInfinite = true) (hk : 0 < k)
    (hbound : rest + k ≤ 2 ^ 53) : chooseStep rest x k = x := by
  obtain ⟨negative, rfl⟩ := exists_infinite h
  rw [chooseStep, Binary64.infinite_mul_ofNat (by omega) hbound,
    Binary64.infinite_div_ofNat (by omega)]

/-- A step of a product leaves an infinity as it is. -/
theorem productStep_of_isInfinite (h : x.isInfinite = true) (hk : 0 < k) (hbound : k ≤ 2 ^ 53) :
    productStep x k = x := by
  obtain ⟨negative, rfl⟩ := exists_infinite h
  exact Binary64.infinite_mul_ofNat hk hbound

/-- A binomial coefficient is the result of all its steps. -/
theorem choose_eq_foldl (hk : 0 < k) (hbound : rest + k + count ≤ 2 ^ 53 + 1) :
    choose rest x k count = (List.range' k count).foldl (chooseStep rest) x := by
  induction count generalizing x k with
  | zero => rfl
  | succ count ih =>
    rw [choose, List.range'_succ, List.foldl_cons, ← ih (Nat.succ_pos k) (by omega)]
    split_ifs with h
    · rw [chooseStep_of_isInfinite h hk (by omega), choose_of_isInfinite h]
    · rfl

/-- A product is the result of all its steps. -/
theorem productFrom_eq_foldl (hfirst : 0 < first) (hbound : first + count ≤ 2 ^ 53 + 1) :
    productFrom x first count = (List.range' first count).foldl productStep x := by
  induction count generalizing x first with
  | zero => rfl
  | succ count ih =>
    rw [productFrom, List.range'_succ, List.foldl_cons, ← ih (Nat.succ_pos first) (by omega)]
    split_ifs with h
    · rw [productStep_of_isInfinite h hfirst (by omega), productFrom_of_isInfinite h]
    · rfl

/-- The last step of a binomial coefficient. -/
theorem choose_succ (hk : 0 < k) (hbound : rest + k + count ≤ 2 ^ 53) :
    choose rest x k (count + 1) = chooseStep rest (choose rest x k count) (k + count) := by
  rw [choose_eq_foldl hk (by omega), choose_eq_foldl hk (by omega), List.range'_concat,
    List.foldl_append, Nat.one_mul]
  rfl

/-- The last step of a product. -/
theorem productFrom_succ (hfirst : 0 < first) (hbound : first + count ≤ 2 ^ 53) :
    productFrom x first (count + 1) = productStep (productFrom x first count) (first + count) := by
  rw [productFrom_eq_foldl hfirst (by omega), productFrom_eq_foldl hfirst (by omega),
    List.range'_concat, List.foldl_append, Nat.one_mul]
  rfl

/-! ## Products before a division -/

/-- The product that step `k` of a binomial coefficient divides by `k`, if nothing is rounded. -/
def dividend (rest k : Nat) : Nat := k * (rest + k).choose k

/-- The dividend of a step is the coefficient before it times the next factor. -/
theorem dividend_succ (rest k : Nat) :
    dividend rest (k + 1) = (rest + k).choose k * (rest + (k + 1)) := by
  rw [dividend, Nat.mul_comm, Nat.mul_comm ((rest + k).choose k)]
  exact (Nat.add_one_mul_choose_eq (rest + k) k).symm

/-- Dividends grow from step to step. -/
theorem dividend_mono (rest : Nat) : Monotone (dividend rest) := by
  refine monotone_nat_of_le_succ fun k => ?_
  rw [dividend_succ, dividend, Nat.mul_comm]
  exact Nat.mul_le_mul_left _ (by omega)

/-! ## Factors on words -/

/-- Steps that all have results lead to the last result. -/
theorem foldlM_eq_some {f : α → β → Option α} {g : α → β → α} {l : List β} {a : α}
    (h : ∀ b ∈ l, ∀ a, f a b = some (g a b)) : l.foldlM f a = some (l.foldl g a) := by
  induction l generalizing a with
  | nil => rfl
  | cons b l ih =>
    rw [List.foldlM_cons, h b List.mem_cons_self, Option.bind_eq_bind, Option.bind_some,
      ih fun c hc => h c (List.mem_cons_of_mem b hc), List.foldl_cons]

/-- The smaller one of two words. -/
theorem toNat_ite_le (a b : BitVec 32) : (if a ≤ b then a else b).toNat = min a.toNat b.toNat := by
  simp only [BitVec.le_def]
  split_ifs <;> omega

/-- On words a binomial coefficient has the result that it has for natural numbers. -/
theorem combination?_eq (n r : BitVec 32) :
    Words.combination? n r = some (combination n.toNat r.toNat) := by
  unfold Words.combination? combination
  simp only [BitVec.lt_def]
  split_ifs with hlt
  · rfl
  · have hn := n.isLt
    obtain ⟨rest, hrest, hvalue⟩ := Word.exists_sub? (a := n) (b := r) (by omega)
    rw [hrest, Option.bind_eq_bind, Option.bind_some]
    have hmin := toNat_ite_le r rest
    rw [hvalue] at hmin
    generalize (if r ≤ rest then r else rest) = m at hmin ⊢
    rw [choose_eq_foldl Nat.one_pos (by omega), ← hmin]
    refine foldlM_eq_some fun k hk x => ?_
    rw [List.mem_range'_1] at hk
    -- A factor is at most `n`.
    obtain ⟨rest', hrest', hvalue'⟩ := Word.exists_sub? (a := n) (b := m) (by omega)
    have hk' : (BitVec.ofNat 32 k).toNat = k := by
      rw [BitVec.toNat_ofNat, Nat.mod_eq_of_lt (by omega)]
    obtain ⟨factor, hfactor, hvalue''⟩ :=
      Word.exists_add? (a := rest') (b := BitVec.ofNat 32 k) (by omega)
    rw [hrest', Option.bind_some, hfactor, Option.bind_some, hvalue'', hvalue', hk']
    rfl

/-- On words a number of arrangements has the result that it has for natural numbers, except that
there is no first factor for no arrangement of `2 ^ 32 - 1` things. -/
theorem permutation?_eq (n r : BitVec 32) :
    Words.permutation? n r =
      if n.toNat = 2 ^ 32 - 1 ∧ r.toNat = 0 then none
      else some (permutation n.toNat r.toNat) := by
  have hn := n.isLt
  have hone : (1 : BitVec 32).toNat = 1 := rfl
  unfold Words.permutation? permutation
  simp only [BitVec.lt_def]
  by_cases hlt : n.toNat < r.toNat
  · rw [if_pos hlt, if_pos hlt, if_neg (by omega)]
    rfl
  · obtain ⟨rest, hrest, hvalue⟩ := Word.exists_sub? (a := n) (b := r) (by omega)
    rw [if_neg hlt, if_neg hlt, hrest, Option.bind_eq_bind, Option.bind_some]
    by_cases hlast : n.toNat = 2 ^ 32 - 1 ∧ r.toNat = 0
    · rw [if_pos hlast, Word.add?_eq_none (by omega)]
      rfl
    · obtain ⟨start, hstart, hvalue'⟩ := Word.exists_add? (a := rest) (b := 1) (by omega)
      have hcount : n.toNat + 1 - start.toNat = r.toNat := by omega
      rw [if_neg hlast, hstart, Option.bind_some, hcount, hvalue', hvalue, hone,
        productFrom_eq_foldl (by omega) (by omega)]
      rfl

end Calculator.Counting
