import Calculator.Counting
import Calculator.Word

/-!
# Counting with words

The counting functions as they are carried out on words, numbers without a sign of 32 or 64 bits. A
computation has a result only if every operation on words in it has one. Loops end, because an operation
that has a result makes the remainder smaller or the divisor larger. Signed words of 64 bits are taken
in two's complement.
-/

namespace Calculator.Counting.Words

/-- Euclid's algorithm. -/
def commonDivisor? (a b : BitVec 64) : Option (BitVec 64) :=
  if b = 0 then some a
  else
    match _hrest : Word.rem? a b with
    | some rest => commonDivisor? b rest
    | none => none
termination_by b.toNat
decreasing_by exact Word.toNat_lt_of_rem? _hrest

/-- Another step of the algorithm is made with the remainder. -/
theorem commonDivisor?_eq_bind (a b : BitVec 64) :
    commonDivisor? a b = if b = 0 then some a else (Word.rem? a b).bind (commonDivisor? b) := by
  rw [commonDivisor?]
  cases Word.rem? a b <;> rfl

/-- The greatest common divisor of the magnitudes of two signed words. -/
def gcd? (a b : BitVec 64) : Option (BitVec 64) :=
  commonDivisor? a.abs b.abs

/-- The least common multiple of the magnitudes of two signed words. The last multiplication says
whether there is one among the words. -/
def lcm? (a b : BitVec 64) : Option (Option (BitVec 64)) := do
  if a = 0 ∨ b = 0 then return some 0
  let part ← Word.div? a.abs (← gcd? a b)
  return Word.mul? part b.abs

/-- The search for an odd divisor, from `divisor` up to the square root of `n`. -/
def noOddDivisor? (n divisor : BitVec 64) : Option Bool := do
  if divisor ≤ (← Word.div? n divisor) then
    if (← Word.rem? n divisor) = 0 then some false
    else
      match _hnext : Word.add? divisor 2 with
      | some next => noOddDivisor? n next
      | none => none
  else some true
termination_by 2 ^ 64 - divisor.toNat
decreasing_by
  have hlt := next.isLt
  have htwo : (2 : BitVec 64).toNat = 2 := rfl
  have hvalue := Word.toNat_of_add? _hnext
  omega

/-- Another step of the search is made with the next odd number. -/
theorem noOddDivisor?_eq_bind (n divisor : BitVec 64) :
    noOddDivisor? n divisor =
      (Word.div? n divisor).bind fun quotient =>
        if divisor ≤ quotient then
          (Word.rem? n divisor).bind fun rest =>
            if rest = 0 then some false else (Word.add? divisor 2).bind (noOddDivisor? n)
        else some true := by
  rw [noOddDivisor?]
  cases Word.add? divisor 2 <;> rfl

/-- Whether a word is prime. -/
def isPrime? (n : BitVec 64) : Option Bool := do
  if n < 2 then return false
  if (← Word.rem? n 2) = 0 then return n = 2
  noOddDivisor? n 3

/-- The number of ways to choose `r` of `n` things. Every factor is formed anew from `n` and `r`. -/
def combination? (n r : BitVec 32) : Option Binary64 := do
  if n < r then return 0
  let rest ← Word.sub? n r
  let r := if r ≤ rest then r else rest
  (List.range' 1 r.toNat).foldlM (fun x k => do
    let factor ← Word.add? (← Word.sub? n r) (.ofNat 32 k)
    return x * .ofNat factor.toNat / .ofNat k) 1

/-- The number of ways to arrange `r` of `n` things in a row. -/
def permutation? (n r : BitVec 32) : Option Binary64 := do
  if n < r then return 0
  let first ← Word.add? (← Word.sub? n r) 1
  return (List.range' first.toNat (n.toNat + 1 - first.toNat)).foldl (fun x k => x * .ofNat k) 1

/-- One step along the sequence of Fibonacci, from two neighbours to the next two. -/
def fibonacciStep? (pair : BitVec 64 × BitVec 64) : Option (BitVec 64 × BitVec 64) := do
  return (pair.2, ← Word.add? pair.1 pair.2)

/-- The Fibonacci number with the given index, unless a sum on the way to it overflows. -/
def fibonacci? (n : BitVec 32) : Option (BitVec 64) := do
  if n = 0 then return 0
  let pair ← (List.range' 1 (n.toNat - 1)).foldlM (fun pair _ => fibonacciStep? pair) (0, 1)
  return pair.2

end Calculator.Counting.Words
