import Mathlib.Data.Nat.Fib.Basic
import Mathlib.Tactic.SplitIfs
import Calculator.Counting.Words

/-!
# The sequence of Fibonacci

The loop holds two neighbours of the sequence, and the larger one is a word
(`fibonacciFrom_fib`). Every sum that it forms is the next number up to the one that is asked for, and
the sequence grows. So the first sum that no word can hold is either this number or one before it, and
there is a result exactly if the number is a word (`fibonacci?_eq`). On words the same sums are formed
(`map_fibonacci?`).
-/

namespace Calculator.Counting

variable {k count : Nat}

/-- From two neighbours, of which the larger one is below the limit, the loop leads to the number that
comes `count` places after them, if that is below the limit. -/
theorem fibonacciFrom_fib (h : Nat.fib (k + 1) < wordLimit) :
    fibonacciFrom (Nat.fib k) (Nat.fib (k + 1)) count =
      if Nat.fib (k + 1 + count) < wordLimit then some (Nat.fib (k + 1 + count)) else none := by
  induction count generalizing k with
  | zero => rw [fibonacciFrom, Nat.add_zero, if_pos h]
  | succ count ih =>
    rw [fibonacciFrom, ← Nat.fib_add_two, show k + 1 + (count + 1) = k + 2 + count by omega]
    by_cases hnext : Nat.fib (k + 2) < wordLimit
    · rw [if_pos hnext, ih hnext]
    · -- What comes later is not smaller.
      have hle : Nat.fib (k + 2) ≤ Nat.fib (k + 2 + count) := Nat.fib_mono (Nat.le_add_right _ _)
      rw [if_neg hnext, if_neg (by omega)]

/-- There is a result exactly if the Fibonacci number is below `2 ^ 64`. -/
theorem fibonacci?_eq (n : Nat) :
    fibonacci? n = if Nat.fib n < 2 ^ 64 then some (Nat.fib n) else none := by
  cases n with
  | zero => rfl
  | succ n =>
    have hfrom : fibonacciFrom (Nat.fib 0) (Nat.fib 1) n =
        if Nat.fib (0 + 1 + n) < wordLimit then some (Nat.fib (0 + 1 + n)) else none :=
      fibonacciFrom_fib (by decide)
    rw [Nat.zero_add, Nat.add_comm 1 n] at hfrom
    exact hfrom

example : fibonacci? 93 = some 12200160415121876738 ∧ fibonacci? 94 = none := by decide +kernel

/-- The largest Fibonacci number below `2 ^ 64` has the index 93. -/
theorem fib_lt_iff (n : Nat) : Nat.fib n < 2 ^ 64 ↔ n ≤ 93 := by
  constructor
  · intro hlt
    by_contra hle
    have hmono : Nat.fib 94 ≤ Nat.fib n := Nat.fib_mono (by omega)
    have hlarge : 2 ^ 64 ≤ Nat.fib 94 := by decide +kernel
    omega
  · intro hle
    have hmono : Nat.fib n ≤ Nat.fib 93 := Nat.fib_mono hle
    have hsmall : Nat.fib 93 < 2 ^ 64 := by decide +kernel
    omega

/-! ## On words -/

/-- The loop on words goes along the sequence as the one among natural numbers does. -/
theorem map_foldlM_fibonacciStep? (first : Nat) (a b : BitVec 64) :
    ((List.range' first count).foldlM (fun pair _ => Words.fibonacciStep? pair) (a, b)).map
      (fun pair => pair.2.toNat) = fibonacciFrom a.toNat b.toNat count := by
  -- What the loop counts with, from `first` on, has no influence on its steps.
  induction count generalizing first a b with
  | zero => rfl
  | succ count ih =>
    have hsum := Word.map_add? a b
    rw [List.range'_succ, List.foldlM_cons, fibonacciFrom, wordLimit, Words.fibonacciStep?]
    cases hadd : Word.add? a b with
    | none =>
      rw [hadd, Option.map_none] at hsum
      split_ifs at hsum with h
      rw [if_neg h]
      rfl
    | some c =>
      rw [hadd, Option.map_some] at hsum
      split_ifs at hsum with h
      rw [if_pos h, ← Option.some.inj hsum]
      exact ih _ b c

/-- On words there is the number that there is among natural numbers. -/
theorem map_fibonacci? (n : BitVec 32) :
    (Words.fibonacci? n).map BitVec.toNat = fibonacci? n.toNat := by
  unfold Words.fibonacci?
  by_cases hzero : n = 0
  · rw [if_pos hzero, hzero]
    rfl
  · have hne : n.toNat ≠ 0 := fun h => hzero (Word.eq_zero_iff.2 h)
    obtain ⟨m, hm⟩ : ∃ m, n.toNat = m + 1 := ⟨n.toNat - 1, by omega⟩
    have hloop : ((List.range' 1 m).foldlM (fun pair _ => Words.fibonacciStep? pair) (0, 1)).map
        (fun pair => pair.2.toNat) = fibonacciFrom 0 1 m := map_foldlM_fibonacciStep? 1 0 1
    rw [Option.map_eq_bind] at hloop
    rw [if_neg hzero, hm, Nat.add_sub_cancel, Option.bind_eq_bind, Option.map_bind]
    exact hloop

/-- **Fibonacci numbers in 64 bits.** There is a result exactly if a word can hold the number, and then
the result is the number. No sum is formed beyond the one that is needed: the last result is that of
the index 93, and from the first index without a result on no index has one. On words the same sums
are formed, none of them carried out of the word. -/
theorem fibonacci_exact (n : BitVec 32) :
    fibonacci? n.toNat =
        (if Nat.fib n.toNat < 2 ^ 64 then some (Nat.fib n.toNat) else none) ∧
      (fibonacci? n.toNat = none ↔ 93 < n.toNat) ∧
      (∀ m : BitVec 32, n ≤ m → fibonacci? n.toNat = none → fibonacci? m.toNat = none) ∧
      (Words.fibonacci? n).map BitVec.toNat = fibonacci? n.toNat := by
  have hnone (m : Nat) : fibonacci? m = none ↔ 93 < m := by
    rw [fibonacci?_eq]
    split_ifs with h
    · exact iff_of_false nofun (Nat.not_lt.2 ((fib_lt_iff m).1 h))
    · exact iff_of_true rfl (Nat.not_le.1 fun hle => h ((fib_lt_iff m).2 hle))
  refine ⟨fibonacci?_eq _, hnone _, fun m hle h => ?_, map_fibonacci? n⟩
  rw [hnone] at h ⊢
  exact h.trans_le (BitVec.le_def.1 hle)

end Calculator.Counting
