import Calculator.Decimal.Shortest

/-!
# Why a calculation fails

Every way in which reading or evaluating an expression can fail is a constructor with what there is
to say about it. The wording is in `Failure.message` alone.
-/

namespace Calculator

/-- What makes an expression invalid, as far as no kind of failure of its own stands for it. -/
inductive Invalid where
  /-- A run of digits and points that is no number. -/
  | malformedNumber (run : String)
  /-- A character that begins no token, and its byte offset. -/
  | unrecognizedCharacter (c : Char) (position : Nat)
  /-- More levels than the parser accepts. -/
  | nestedTooDeeply
  /-- The value of the whole expression is a NaN. -/
  | notANumber
  /-- A power of two numbers that is no real number. -/
  | nonRealPower
  /-- The square root of a number below zero. -/
  | negativeSquareRoot (x : Binary64)
  /-- The named logarithm of a number that is not above zero. -/
  | nonPositiveLogarithm (function : String) (x : Binary64)
  /-- An argument of the named function outside [-1, 1]. -/
  | outsideUnitInterval (function : String) (x : Binary64)
  /-- More bytes than the limit that is in force. -/
  | tooLong (limit : Nat)
  deriving DecidableEq

/-- Why a calculation fails. -/
inductive Failure where
  /-- The expression is invalid for the given reason. -/
  | invalid (reason : Invalid)
  /-- A division by zero. -/
  | divisionByZero
  /-- A call of a function that does not exist. -/
  | unknownFunction (name : String)
  /-- A call with the wrong number of arguments. -/
  | wrongArity (expected got : Nat)
  /-- A name that is no constant. -/
  | unknownIdentifier (name : String)
  /-- A token that cannot stand at its byte offset. -/
  | unexpectedToken (found : String) (position : Nat)
  /-- The expression ends too early. -/
  | unexpectedEnd
  /-- The value of the whole expression is infinite. -/
  | overflow
  deriving DecidableEq

/-- What is wrong with an invalid expression, in words. -/
def Invalid.message : Invalid → String
  | malformedNumber run => s!"malformed number '{run}'"
  | unrecognizedCharacter c position => s!"unrecognized character '{c}' at position {position}"
  | nestedTooDeeply => "expression nested too deeply"
  | notANumber => "result is not a number"
  | nonRealPower => "non-real power result"
  | negativeSquareRoot x => s!"sqrt of negative number {x}"
  | nonPositiveLogarithm function x => s!"{function} of non-positive number {x}"
  | outsideUnitInterval function x => s!"{function} argument {x} outside [-1, 1]"
  | tooLong limit => s!"expression is longer than {limit} bytes"

/-- Why a calculation fails, in words. -/
def Failure.message : Failure → String
  | invalid reason => s!"invalid expression: {reason.message}"
  | divisionByZero => "division by zero"
  | unknownFunction name => s!"unknown function: {name}"
  | wrongArity expected got => s!"wrong number of arguments: expected {expected}, got {got}"
  | unknownIdentifier name => s!"unknown identifier: {name}"
  | unexpectedToken found position => s!"unexpected token '{found}' at position {position}"
  | unexpectedEnd => "unexpected end of expression"
  | overflow => "result is too large"

end Calculator
