import Calculator.Expr.Evaluate
import Calculator.Expr.Parser

/-!
# The engine

An engine evaluates and checks expressions that are given as text. Its only state is the angle unit.
-/

namespace Calculator

/-- Evaluates a text. -/
def evaluateText (text : String) (unit : AngleUnit) : Except Failure Binary64 := do
  (← Expr.ofText text).evaluate unit

/-- Checks a text without computing anything. -/
def validateText (text : String) : Except Failure Unit := do
  (← Expr.ofText text).check

/-- A calculator that keeps its angle unit. -/
structure Engine where
  /-- The unit in force. -/
  unit : AngleUnit := .degrees
  deriving DecidableEq

namespace Engine

/-- The value of an expression in the unit in force. -/
def evaluate (engine : Engine) (text : String) : Except Failure Binary64 :=
  evaluateText text engine.unit

/-- Checks an expression. -/
def validate (_ : Engine) (text : String) : Except Failure Unit :=
  validateText text

end Engine

end Calculator
