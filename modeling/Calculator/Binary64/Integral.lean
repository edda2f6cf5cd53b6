import Calculator.Binary64.Basic

/-!
# Integral parts of 64-bit floating-point numbers

Rounding to an integer keeps the sign, also of a result of zero, and leaves infinities and NaN
alone.
-/

namespace Calculator.Binary64

/-- Whether this is a finite number without a fractional part. -/
def isIntegral : Binary64 → Bool
  | finite _ rank => units rank % unitsPerOne = 0
  | _ => false

/-- The largest integer at most this. -/
def floor : Binary64 → Binary64
  | finite negative rank =>
    let whole := units rank / unitsPerOne
    let part := units rank % unitsPerOne
    ofQuotient negative (if negative && part ≠ 0 then whole + 1 else whole) 1
  | other => other

/-- The smallest integer at least this. -/
def ceil : Binary64 → Binary64
  | finite negative rank =>
    let whole := units rank / unitsPerOne
    let part := units rank % unitsPerOne
    ofQuotient negative (if !negative && part ≠ 0 then whole + 1 else whole) 1
  | other => other

/-- The nearest integer, the one away from zero of two that are equally near. -/
def round : Binary64 → Binary64
  | finite negative rank =>
    ofQuotient negative ((2 * units rank + unitsPerOne) / (2 * unitsPerOne)) 1
  | other => other

end Calculator.Binary64
