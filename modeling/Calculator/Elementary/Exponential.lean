import Calculator.Elementary.Enclosure
import Calculator.Elementary.Series

/-!
# Exponential function and logarithms

Correctly rounded values of the exponential function and of the logarithms to base `e` and 10. An
argument is reduced by powers of two, and a series gives the rest. Values that a floating-point
number holds exactly, such as the logarithm of a power of ten, are decided like all others, because
both ends of a narrow enclosure round to them; only a value of zero is not and is taken out.
-/

namespace Calculator.Elementary

/-- A magnitude in units of `2 ^ -places`, cut off at the last place. -/
def fixedPoint (places : Nat) (rank : Nat) : Int :=
  (Binary64.units rank * 2 ^ places / Binary64.unitsPerOne : Nat)

/-- The exponential function of the fixed-point number `x`: a power of two is taken out, so that the
series is left with less than the logarithm of two. -/
def expEnclosure (places : Nat) (x : Int) : Enclosure :=
  let two := logTwo places
  let power := x / two
  .around (expSmall places (x - power * two)) (places - power)

/-- The exponential function of the value that the fixed-point numbers close in on. Below -746 the
result is zero, and from 710 on it is infinite. -/
def expSettled (argument : Nat → Int) : Binary64 :=
  let whole := argument 128 / 2 ^ 128
  if whole < -746 then 0
  else if 710 ≤ whole then .infinite false
  else settle fun places => expEnclosure places (argument places)

/-- The natural logarithm of the magnitude with the given rank, which is not zero. -/
def logFixed (places : Nat) (rank : Nat) : Int :=
  let units := Binary64.units rank
  let lead := units.log2
  let one : Int := 2 ^ places
  let mantissa : Int := (units * 2 ^ places / 2 ^ lead : Nat)
  ((lead : Int) - 1074) * logTwo places
    + logRatio places ((mantissa - one) * one / (mantissa + one))

/-- The natural logarithm of ten. -/
def logTen (places : Nat) : Int :=
  3 * logTwo places + logRatio places (2 ^ places / 9)

/-- Negation of a fixed-point number if `negative` holds. -/
def withSign (negative : Bool) (n : Int) : Int := if negative then -n else n

end Calculator.Elementary

namespace Calculator

namespace Binary64

open Elementary

/-- The exponential function. -/
def exp : Binary64 → Binary64
  | nan negative => nan negative
  | infinite negative => if negative then 0 else infinite false
  | finite negative rank =>
    expSettled fun places => withSign negative (fixedPoint places rank)

/-- The logarithm that `estimate` approximates, of a number that is not below zero. -/
def logWith (estimate : Nat → Nat → Int) : Binary64 → Binary64
  | nan negative => nan negative
  | infinite negative => if negative then nan false else infinite false
  | finite negative rank =>
    if rank.val = 0 then infinite true
    else if negative then nan false
    else if finite false rank = 1 then 0
    else settle fun places => .around (estimate places rank) places

/-- The natural logarithm. -/
def ln : Binary64 → Binary64 :=
  logWith logFixed

/-- The logarithm to base ten. -/
def log10 : Binary64 → Binary64 :=
  logWith fun places rank => logFixed places rank * 2 ^ places / logTen places

end Binary64

end Calculator
