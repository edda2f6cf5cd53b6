import Calculator.Natural

/-!
# Decimal numerals and positional notation

A `Decimal` is a coefficient times a power of ten. It is written positionally, with every digit
down to the units or to its last place, or in scientific notation. Neither form keeps zeros that
say nothing.
-/

namespace Calculator

/-- The digit that stands for a number below ten. -/
def digitChar (n : Nat) : Char := Char.ofNat ('0'.toNat + n)

/-- The numeral of a natural number, most significant digit first. -/
def numeral (n : Nat) : List Char :=
  if n < 10 then [digitChar n] else numeral (n / 10) ++ [digitChar (n % 10)]
termination_by n

/-- The number that a list of decimal digits denotes. -/
def ofNumeral (digits : List Char) : Nat :=
  digits.foldl (fun n c => 10 * n + (c.toNat - '0'.toNat)) 0

/-- How many digits a natural number has; zero has none. -/
def digitCount (n : Nat) : Nat :=
  if n = 0 then 0 else digitCount (n / 10) + 1
termination_by n

/-- The numeral of an integer. -/
def signedNumeral (n : Int) : List Char :=
  if n < 0 then '-' :: numeral n.natAbs else numeral n.natAbs

/-- The number `coefficient * 10 ^ exponent`. -/
structure Decimal where
  /-- The digits, read as a natural number. -/
  coefficient : Nat
  /-- The power of ten that the last digit counts. -/
  exponent : Int
  deriving DecidableEq, Repr

namespace Decimal

/-- `coefficient` without its trailing zeros, and how many there are. -/
def splitZeros (coefficient : Nat) : Nat × Nat :=
  if coefficient = 0 then (0, 0)
  else if coefficient % 10 = 0 then
    let (rest, count) := splitZeros (coefficient / 10)
    (rest, count + 1)
  else (coefficient, 0)
termination_by coefficient

/-- The same number with a coefficient that does not end in a zero. -/
def normalize (d : Decimal) : Decimal :=
  let (rest, count) := splitZeros d.coefficient
  ⟨rest, d.exponent + count⟩

/-- Every digit of the number in its place, with a point only before a fractional part. -/
def positional (d : Decimal) : List Char :=
  let d := d.normalize
  let digits := numeral d.coefficient
  if 0 ≤ d.exponent then digits ++ List.replicate d.exponent.toNat '0'
  else
    let places := d.exponent.natAbs
    if places < digits.length then
      digits.take (digits.length - places) ++ '.' :: digits.drop (digits.length - places)
    else '0' :: '.' :: (List.replicate (places - digits.length) '0' ++ digits)

/-- One digit before the point, and the exponent after an `e`. -/
def scientific (d : Decimal) : List Char :=
  let d := d.normalize
  let digits := numeral d.coefficient
  let mantissa := match digits with
    | [] => []
    | [lead] => [lead]
    | lead :: rest => lead :: '.' :: rest
  mantissa ++ 'e' :: signedNumeral (d.exponent + (digits.length - 1 : Nat))

/-- The exponent of the leading digit of `num / den`: the largest power of ten that is at most this
quotient. -/
def leadingExponent (num den : Nat) : Int :=
  if den ≤ num then digitCount (num / den) - 1
  else -(digitCount ((den + num - 1) / num - 1) : Nat)

/-- The quotient `num / den` counted in steps of `10 ^ exponent`, as a quotient. -/
def inSteps (num den : Nat) (exponent : Int) : Nat × Nat :=
  if 0 ≤ exponent then (num, den * 10 ^ exponent.toNat)
  else (num * 10 ^ exponent.natAbs, den)

end Decimal

end Calculator
