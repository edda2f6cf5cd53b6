import Calculator.Binary64.Integral
import Calculator.Decimal.Shortest

/-!
# Results with a given number of significant digits

A result is shown rounded to so many significant digits, a half going to the even neighbour. Zeros
at the end of a fraction are left out. Numbers whose leading digit then stands five places or more
behind the point, or further before it than there are digits, are written in scientific notation.
An integer below `2^63` is shown whole, whatever the precision.
-/

namespace Calculator

namespace Decimal

/-- A numeral with its last `places` digits behind the point. Zeros are put in front where there are
too few digits, and there is no point without places. -/
def withPoint (coefficient places : Nat) : List Char :=
  let digits := numeral coefficient
  let padded := List.replicate (places + 1 - digits.length) '0' ++ digits
  if places = 0 then padded
  else
    let whole := padded.length - places
    padded.take whole ++ '.' :: padded.drop whole

/-- A quotient with so many places behind the point. -/
def fixedPoint (num den places : Nat) : List Char :=
  withPoint (roundHalfEven (num * 10 ^ places) den) places

/-- The mantissa of a positive quotient with so many places behind the point, and its exponent.
Rounding up can carry into a new leading digit. -/
def scientificParts (num den places : Nat) : List Char × Int :=
  let lead := leadingExponent num den
  let (n, d) := inSteps num den (lead - places)
  let coefficient := roundHalfEven n d
  if coefficient = 10 ^ (places + 1) then (withPoint (10 ^ places) places, lead + 1)
  else (withPoint coefficient places, lead)

/-- A number without the zeros at the end of its fraction, and without a point at its end. -/
def trimZeros (number : List Char) : List Char :=
  if number.contains '.' then
    ((number.reverse.dropWhile (· == '0')).dropWhile (· == '.')).reverse
  else number

end Decimal

namespace Binary64

/-- Significant digits where nothing else is asked for. -/
def defaultPrecision : Nat := 10

/-- Fewest and most significant digits that are ever shown. -/
def clampPrecision (precision : Nat) : Nat := max 1 (min precision 17)

/-- A positive finite magnitude with so many significant digits. The exponent is the one after
rounding, so the number is rounded to significant digits first, and to decimal places afterwards
where it is shown without an exponent. -/
def significantText (rank precision : Nat) : List Char :=
  let (mantissa, exponent) := Decimal.scientificParts (units rank) unitsPerOne (precision - 1)
  if exponent < -4 ∨ precision ≤ exponent then
    Decimal.trimZeros mantissa ++ 'e' :: signedNumeral exponent
  else
    let places := ((precision : Int) - 1 - exponent).toNat
    Decimal.trimZeros (Decimal.fixedPoint (units rank) unitsPerOne places)

/-- The text of a result with the given number of significant digits, at least 1 and at most 17. -/
def formatChars (x : Binary64) (precision : Nat) : List Char :=
  match x with
  | finite negative rank =>
    let magnitude :=
      if x.isIntegral && units rank < 2 ^ 63 * unitsPerOne then numeral (units rank / unitsPerOne)
      else significantText rank (clampPrecision precision)
    if negative && rank.val ≠ 0 then '-' :: magnitude else magnitude
  | other => other.chars

/-- The text of a result with the given number of significant digits. -/
def format (x : Binary64) (precision : Nat) : String :=
  String.ofList (x.formatChars precision)

/-- The text of a result with the default number of significant digits. -/
def formatDefault (x : Binary64) : String :=
  x.format defaultPrecision

end Binary64

end Calculator
