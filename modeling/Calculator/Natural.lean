/-!
# Natural numbers

The only rounding rule of the library: a quotient of natural numbers goes to the nearest integer,
and a quotient halfway between two integers goes to the even one.

The powers of natural numbers and of integers are those of the core library in every module, also in
one that imports a library with powers of its own. So `2 ^ n` is the same term wherever it is
written.
-/

attribute [default_instance 20000, instance (20000)] instPowNat

namespace Calculator

/-- The integer nearest to `num / den`, the even one of two that are equally near. -/
def roundHalfEven (num den : Nat) : Nat :=
  let quotient := num / den
  let remainder := num % den
  if 2 * remainder < den then quotient
  else if den < 2 * remainder then quotient + 1
  else quotient + quotient % 2

/-- The largest integer whose square is at most `n`. -/
def squareRoot (n : Nat) : Nat :=
  if n = 0 then 0
  else
    let root := 2 * squareRoot (n / 4)
    if (root + 1) * (root + 1) ≤ n then root + 1 else root
termination_by n

end Calculator
