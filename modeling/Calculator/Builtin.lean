import Calculator.Angle
import Calculator.Binary64.Integral
import Calculator.Elementary.Circular
import Calculator.Failure

/-!
# Built-in functions and constants

The functions of one number and the constants that an expression can name, in any case. Sine, cosine
and tangent take an angle in the unit in force, and their inverses give one. Arguments at which a
function has no real value are refused.
-/

namespace Calculator

/-- A built-in function. -/
inductive Builtin where
  | sqrt
  | abs
  | sin
  | cos
  | tan
  | asin
  | acos
  | atan
  | log
  | ln
  | exp
  | floor
  | ceil
  | round
  deriving DecidableEq, Repr

namespace Builtin

/-- All functions. -/
def all : List Builtin :=
  [sqrt, abs, sin, cos, tan, asin, acos, atan, log, ln, exp, floor, ceil, round]

/-- The name of a function. -/
def name : Builtin → String
  | sqrt => "sqrt"
  | abs => "abs"
  | sin => "sin"
  | cos => "cos"
  | tan => "tan"
  | asin => "asin"
  | acos => "acos"
  | atan => "atan"
  | log => "log"
  | ln => "ln"
  | exp => "exp"
  | floor => "floor"
  | ceil => "ceil"
  | round => "round"

/-- What a function does, in a few words. -/
def description : Builtin → String
  | sqrt => "Square root"
  | abs => "Absolute value"
  | sin => "Sine"
  | cos => "Cosine"
  | tan => "Tangent"
  | asin => "Inverse sine"
  | acos => "Inverse cosine"
  | atan => "Inverse tangent"
  | log => "Base-10 logarithm"
  | ln => "Natural logarithm"
  | exp => "Exponential e^x"
  | floor => "Round down"
  | ceil => "Round up"
  | round => "Round half away from zero"

/-- The number of arguments, which is one for every function so far. -/
def arity (_ : Builtin) : Nat := 1

/-- All functions by name. -/
def sorted : List Builtin :=
  all.mergeSort fun f g => f.name ≤ g.name

/-- The function with the given name, in any case. -/
def ofName? (text : String) : Option Builtin :=
  all.find? fun f => f.name = Text.asciiLower text

/-- A number from -1 to 1, of which `f` is to be taken. -/
def unitInterval (f : Builtin) (x : Binary64) : Except Failure Binary64 :=
  if (-1 : Binary64).le x && x.le 1 then .ok x
  else .error (.invalid (.outsideUnitInterval f.name x))

/-- A number that is not zero or less, of which `f` is to be taken. -/
def positive (f : Builtin) (x : Binary64) : Except Failure Binary64 :=
  if x.le 0 then .error (.invalid (.nonPositiveLogarithm f.name x)) else .ok x

/-- The value of a function at a number. -/
def value (f : Builtin) (unit : AngleUnit) (x : Binary64) : Except Failure Binary64 :=
  match f with
  | sqrt => if x.lt 0 then .error (.invalid (.negativeSquareRoot x)) else .ok x.sqrt
  | abs => .ok x.abs
  | sin => .ok (unit.toRadians x).sin
  | cos => .ok (unit.toRadians x).cos
  | tan => .ok (unit.toRadians x).tan
  | asin => do return unit.fromRadians (← unitInterval f x).asin
  | acos => do return unit.fromRadians (← unitInterval f x).acos
  | atan => .ok (unit.fromRadians x.atan)
  | log => do return (← positive f x).log10
  | ln => do return (← positive f x).ln
  | exp => .ok x.exp
  | floor => .ok x.floor
  | ceil => .ok x.ceil
  | round => .ok x.round

/-- The value of a function at a list of arguments, which has to be of the right length. -/
def apply (f : Builtin) (unit : AngleUnit) : List Binary64 → Except Failure Binary64
  | [x] => f.value unit x
  | arguments => .error (.wrongArity f.arity arguments.length)

end Builtin

/-- A named constant. -/
inductive Constant where
  /-- The circle constant. -/
  | pi
  /-- The base of the natural logarithm. -/
  | e
  deriving DecidableEq, Repr

namespace Constant

/-- All constants. -/
def all : List Constant := [pi, e]

/-- The name of a constant. -/
def name : Constant → String
  | pi => "pi"
  | e => "e"

/-- The value of a constant. -/
def value : Constant → Binary64
  | pi => circleConstant
  | e => .ofDecimal false ⟨271828182845904523536028747135266250, -35⟩

/-- The constant with the given name, in any case. -/
def ofName? (text : String) : Option Constant :=
  all.find? fun c => c.name = Text.asciiLower text

end Constant

end Calculator
