import Calculator.Binary64.Arithmetic

/-!
# Counting and number theory

Factorials, binomial coefficients and numbers of arrangements as floating-point numbers, and exact
functions of 64-bit integers, which have no value where their result needs more than 64 bits.
-/

namespace Calculator.Counting

/-- The integers that 64 bits without a sign can hold are those below this. -/
def wordLimit : Nat := 2 ^ 64

/-- The product of a number and the integers from `first` on, `count` of them. Once infinite it
stays so. -/
def productFrom (x : Binary64) (first : Nat) : Nat → Binary64
  | 0 => x
  | count + 1 =>
    if x.isInfinite then x else productFrom (x * .ofNat first) (first + 1) count

/-- The factorial, infinite from 171 on. -/
def factorial (n : Nat) : Binary64 :=
  if 170 < n then .infinite false else productFrom 1 2 (n - 1)

/-- The steps of a binomial coefficient: after step `k` the number is the one of the ways to choose
`k` of `rest + k`. Once infinite it stays so. -/
def choose (rest : Nat) (x : Binary64) (k : Nat) : Nat → Binary64
  | 0 => x
  | count + 1 =>
    if x.isInfinite then x
    else choose rest (x * .ofNat (rest + k) / .ofNat k) (k + 1) count

/-- The number of ways to choose `r` of `n` things. -/
def combination (n r : Nat) : Binary64 :=
  if n < r then 0
  else
    let r := min r (n - r)
    choose (n - r) 1 1 r

/-- The number of ways to arrange `r` of `n` things in a row. -/
def permutation (n r : Nat) : Binary64 :=
  if n < r then 0 else productFrom 1 (n - r + 1) r

/-- The greatest common divisor of two natural numbers. -/
def commonDivisor (a : Nat) : Nat → Nat
  | 0 => a
  | b + 1 => commonDivisor (b + 1) (a % (b + 1))
termination_by b => b
decreasing_by exact Nat.mod_lt _ (Nat.succ_pos _)

/-- The greatest common divisor of the magnitudes. -/
def gcd (a b : Int) : Nat :=
  commonDivisor a.natAbs b.natAbs

/-- The least common multiple of the magnitudes, if 64 bits can hold it. -/
def lcm? (a b : Int) : Option Nat :=
  if a = 0 ∨ b = 0 then some 0
  else
    let multiple := a.natAbs / gcd a b * b.natAbs
    if multiple < wordLimit then some multiple else none

/-- Whether no odd number from `divisor` up to the square root of `n` divides `n`. -/
def noOddDivisor (n divisor : Nat) : Bool :=
  if h : 0 < divisor ∧ divisor ≤ n / divisor then
    if n % divisor = 0 then false else noOddDivisor n (divisor + 2)
  else true
termination_by n + 1 - divisor
decreasing_by
  have := h.2
  have := Nat.div_le_self n divisor
  omega

/-- Whether a natural number is prime. -/
def isPrime (n : Nat) : Bool :=
  if n < 2 then false
  else if n % 2 = 0 then n = 2
  else noOddDivisor n 3

/-- Shifts a pair of neighbours in the sequence of Fibonacci along by `count` places, as long as 64
bits can hold them. -/
def fibonacciFrom (a b : Nat) : Nat → Option Nat
  | 0 => some b
  | count + 1 => if a + b < wordLimit then fibonacciFrom b (a + b) count else none

/-- The Fibonacci number with the given index, if 64 bits can hold it. -/
def fibonacci? : Nat → Option Nat
  | 0 => some 0
  | n + 1 => fibonacciFrom 0 1 n

end Calculator.Counting
