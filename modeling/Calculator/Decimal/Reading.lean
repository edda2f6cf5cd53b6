import Calculator.Binary64.Basic
import Calculator.Decimal.Basic

/-!
# Reading decimal numbers

A decimal is read as the nearest floating-point number. The plain form, which expressions use, is a
run of digits with at most one point. The full form adds a sign, an exponent, and the words for
infinity and for no number.
-/

namespace Calculator

/-- Whether a character may stand in a run of digits and points. -/
def isNumeralChar (c : Char) : Bool := c.isDigit || c == '.'

/-- Reads digits with at most one point among them, where at least one digit is needed. -/
def Decimal.ofPlain? (run : List Char) : Option Decimal :=
  let whole := run.takeWhile Char.isDigit
  match run.dropWhile Char.isDigit with
  | [] => if whole.isEmpty then none else some ⟨ofNumeral whole, 0⟩
  | point :: fraction =>
    if point == '.' && fraction.all Char.isDigit && !(whole.isEmpty && fraction.isEmpty) then
      some ⟨ofNumeral (whole ++ fraction), -(fraction.length : Int)⟩
    else none

namespace Binary64

/-- The number nearest to a decimal. Coefficients so far from every finite magnitude that no power
of ten need be formed go to zero or to infinity at once. -/
def ofDecimal (negative : Bool) (d : Decimal) : Binary64 :=
  let lead := (digitCount d.coefficient : Int) + d.exponent
  if d.coefficient = 0 ∨ lead < -330 then ofRank negative 0
  else if 310 < lead then .infinite negative
  else if 0 ≤ d.exponent then ofQuotient negative (d.coefficient * 10 ^ d.exponent.toNat) 1
  else ofQuotient negative d.coefficient (10 ^ d.exponent.natAbs)

/-- Reads a number without a sign or an exponent. -/
def ofPlain? (run : List Char) : Option Binary64 :=
  (Decimal.ofPlain? run).map (ofDecimal false)

/-- Reads the digits of an exponent after an optional sign. -/
def exponentOf? (chars : List Char) : Option Int :=
  let (negative, digits) := match chars with
    | '-' :: digits => (true, digits)
    | '+' :: digits => (false, digits)
    | digits => (false, digits)
  if digits.isEmpty || !digits.all Char.isDigit then none
  else some (if negative then -(ofNumeral digits : Int) else ofNumeral digits)

/-- Reads a number without a sign: one of the words, or a plain decimal and perhaps an exponent. -/
def ofUnsigned? (negative : Bool) (chars : List Char) : Option Binary64 :=
  let word := String.ofList (chars.map Char.toLower)
  if word == "inf" || word == "infinity" then some (.infinite negative)
  else if word == "nan" then some (.nan negative)
  else
    let isExponentMark := fun c : Char => c == 'e' || c == 'E'
    let mantissa := chars.takeWhile fun c => !isExponentMark c
    match chars.dropWhile fun c => !isExponentMark c with
    | [] => (Decimal.ofPlain? mantissa).map (ofDecimal negative)
    | _ :: exponent => do
      let d ← Decimal.ofPlain? mantissa
      let e ← exponentOf? exponent
      return ofDecimal negative ⟨d.coefficient, d.exponent + e⟩

/-- Reads a number in the full form. -/
def ofChars? : List Char → Option Binary64
  | '-' :: chars => ofUnsigned? true chars
  | '+' :: chars => ofUnsigned? false chars
  | chars => ofUnsigned? false chars

/-- Reads a number in the full form. -/
def ofText? (text : String) : Option Binary64 :=
  ofChars? text.toList

end Binary64

end Calculator
