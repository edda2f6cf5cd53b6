import Calculator.Decimal.Shortest

/-!
# Expression trees

A tree is made of numbers, names, negations, operations and calls. Its text shows how it is grouped:
every negation and every operation stands in parentheses.
-/

namespace Calculator

/-- An operation on two numbers. -/
inductive Operation where
  | add
  | sub
  | mul
  | div
  | pow
  deriving DecidableEq, Repr

/-- The sign of an operation. -/
def Operation.symbol : Operation → Char
  | add => '+'
  | sub => '-'
  | mul => '*'
  | div => '/'
  | pow => '^'

/-- An expression tree. -/
inductive Expr where
  /-- A number. -/
  | literal (value : Binary64)
  /-- A constant, by the name that was written for it. -/
  | name (text : String)
  /-- The negation of an expression. -/
  | negate (operand : Expr)
  /-- An operation on two expressions. -/
  | binary (operation : Operation) (left right : Expr)
  /-- A call of a function, by the name that was written for it. -/
  | call (function : String) (arguments : List Expr)

namespace Expr

instance : Inhabited Expr := ⟨.literal 0⟩

mutual

/-- The text of a tree. -/
def chars : Expr → List Char
  | literal value => value.chars
  | name text => text.toList
  | negate operand => '(' :: '-' :: (chars operand ++ [')'])
  | binary operation left right =>
    '(' :: (chars left ++ ' ' :: operation.symbol :: ' ' :: (chars right ++ [')']))
  | call function arguments => function.toList ++ '(' :: (argumentChars arguments ++ [')'])

/-- The texts of the arguments of a call, with commas between them. -/
def argumentChars : List Expr → List Char
  | [] => []
  | [last] => chars last
  | first :: others => chars first ++ ',' :: ' ' :: argumentChars others

end

/-- The text of a tree. -/
def text (e : Expr) : String := String.ofList e.chars

end Expr

end Calculator
