import Calculator.Builtin
import Calculator.Elementary.Power
import Calculator.Expr

/-!
# Checking and evaluating expression trees

Evaluation goes from left to right and stops at the first failure. A call first looks up its
function and counts its arguments, and only then evaluates them. Infinities and NaNs may occur on
the way; only the value of the whole tree has to be a finite number. The check looks at names and
argument counts in the same order and computes nothing.
-/

namespace Calculator

/-- The value of an operation. Division by any zero is refused, and so is a power without a real
value; a power of a NaN is a NaN. -/
def Operation.value (operation : Operation) (x y : Binary64) : Except Failure Binary64 :=
  match operation with
  | add => .ok (x + y)
  | sub => .ok (x - y)
  | mul => .ok (x * y)
  | div => if y.same 0 then .error .divisionByZero else .ok (x / y)
  | pow =>
    let power := x.pow y
    if power.isNaN && !x.isNaN && !y.isNaN then .error (.invalid .nonRealPower) else .ok power

namespace Expr

/-- The function that a call names, if it exists and takes so many arguments. -/
def resolveFunction (function : String) (count : Nat) : Except Failure Builtin :=
  match Builtin.ofName? function with
  | none => .error (.unknownFunction function)
  | some f => if count = f.arity then .ok f else .error (.wrongArity f.arity count)

/-- The constant that a name stands for. -/
def resolveConstant (text : String) : Except Failure Constant :=
  match Constant.ofName? text with
  | none => .error (.unknownIdentifier text)
  | some c => .ok c

mutual

/-- The value of a tree, which may be infinite or a NaN. -/
def value (unit : AngleUnit) : Expr → Except Failure Binary64
  | literal x => .ok x
  | name text => do return (← resolveConstant text).value
  | negate operand => do return -(← value unit operand)
  | binary operation left right => do
    let x ← value unit left
    let y ← value unit right
    operation.value x y
  | call function arguments => do
    let f ← resolveFunction function arguments.length
    let xs ← values unit arguments
    f.apply unit xs

/-- The values of a list of trees. -/
def values (unit : AngleUnit) : List Expr → Except Failure (List Binary64)
  | [] => .ok []
  | first :: others => do
    let x ← value unit first
    let xs ← values unit others
    return x :: xs

end

/-- A value that is a finite number. -/
def requireFinite (x : Binary64) : Except Failure Binary64 :=
  if x.isNaN then .error (.invalid .notANumber)
  else if x.isInfinite then .error .overflow
  else .ok x

/-- The value of a tree, which is a finite number. -/
def evaluate (unit : AngleUnit) (e : Expr) : Except Failure Binary64 := do
  requireFinite (← value unit e)

mutual

/-- Looks for an unknown name or a wrong number of arguments. -/
def check : Expr → Except Failure Unit
  | literal _ => .ok ()
  | name text => do discard (resolveConstant text)
  | negate operand => check operand
  | binary _ left right => do
    check left
    check right
  | call function arguments => do
    discard (resolveFunction function arguments.length)
    checkAll arguments

/-- Looks for an unknown name or a wrong number of arguments in a list of trees. -/
def checkAll : List Expr → Except Failure Unit
  | [] => .ok ()
  | first :: others => do
    check first
    checkAll others

end

end Expr

end Calculator
