import Calculator.Natural

/-!
# Values of settings

A setting that is read from a file or from the environment is a single value, whose kind its
spelling decides. Whether the kind suits the setting is found out later.
-/

namespace Calculator

/-- The value of a setting as it was read. -/
inductive Scalar where
  /-- No value. -/
  | null
  | bool (value : Bool)
  | integer (value : Int)
  /-- A number that is not spelled as an integer. -/
  | real
  | text (value : String)
  /-- A list or a table. -/
  | collection
  deriving DecidableEq

namespace Scalar

/-- The text that a value is. -/
def text? : Scalar → Option String
  | text value => some value
  | _ => none

/-- The natural number below `2^64` that a value is. -/
def word? : Scalar → Option Nat
  | integer value => if 0 ≤ value ∧ value < 2 ^ 64 then some value.toNat else none
  | _ => none

end Scalar

end Calculator
