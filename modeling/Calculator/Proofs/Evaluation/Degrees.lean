import Mathlib.Tactic.SplitIfs
import Calculator.Proofs.Evaluation.Program

/-!
# Degrees are radians with the conversions written out

`inRadians` writes into a tree what degrees mean: the argument of a sine, a cosine or a tangent
times the radians of a degree, and an inverse of one of them times the degrees of a radian. Calls
with another number of arguments stay as they are, since they fail before anything is computed.

Evaluating a tree in degrees is evaluating the written-out tree in radians
(`evaluate_degrees_eq_evaluate_inRadians`), by induction on the tree. A call fails over its name or
its number of arguments in both trees (`value_call_of_length_ne`), and otherwise over its argument,
which is a smaller tree. A product by a number fails over nothing, so the new nodes put no failure
before or behind those of the old ones (`value_convertedCall_singleton`). A tree that has nothing to
write out has one value in both units.
-/

namespace Calculator.Expr

/-- The functions that take an angle, by a name in any case. -/
def TakesAngle (function : String) : Prop := Text.asciiLower function ∈ ["sin", "cos", "tan"]

/-- The functions that give an angle, by a name in any case. -/
def GivesAngle (function : String) : Prop := Text.asciiLower function ∈ ["asin", "acos", "atan"]

instance (function : String) : Decidable (TakesAngle function) :=
  inferInstanceAs (Decidable (_ ∈ _))

instance (function : String) : Decidable (GivesAngle function) :=
  inferInstanceAs (Decidable (_ ∈ _))

/-- A call in degrees, as a tree in radians: the conversion of an angle is a product. -/
def convertedCall (function : String) (arguments : List Expr) : Expr :=
  match arguments with
  | [argument] =>
    if TakesAngle function then
      call function [binary .mul argument (literal radiansPerDegree)]
    else if GivesAngle function then
      binary .mul (call function [argument]) (literal degreesPerRadian)
    else call function [argument]
  | arguments => call function arguments

mutual

/-- A tree in degrees, as a tree in radians. -/
def inRadians : Expr → Expr
  | literal x => literal x
  | name text => name text
  | negate operand => negate (inRadians operand)
  | binary operation left right => binary operation (inRadians left) (inRadians right)
  | call function arguments => convertedCall function (allInRadians arguments)

/-- Some trees in degrees, as trees in radians. -/
def allInRadians : List Expr → List Expr
  | [] => []
  | first :: others => inRadians first :: allInRadians others

end

mutual

/-- No function in a tree takes or gives an angle, where it has one argument. -/
def IsUnitFree : Expr → Prop
  | literal _ | name _ => True
  | negate operand => IsUnitFree operand
  | binary _ left right => IsUnitFree left ∧ IsUnitFree right
  | call function arguments =>
    (arguments.length = 1 → ¬ TakesAngle function ∧ ¬ GivesAngle function) ∧ AllUnitFree arguments

/-- No function in some trees takes or gives an angle. -/
def AllUnitFree : List Expr → Prop
  | [] => True
  | first :: others => IsUnitFree first ∧ AllUnitFree others

end

/-! ## Calls of one argument -/

variable {unit : AngleUnit} {function : String} {f : Builtin} {argument : Expr}

/-- A call of one argument looks for its function, evaluates the argument and applies the function.
-/
theorem value_call_singleton (unit : AngleUnit) (function : String) (argument : Expr) :
    value unit (call function [argument]) = resolveFunction function 1 >>= fun f =>
      value unit argument >>= f.value unit := by
  rw [value, List.length_singleton]
  cases resolveFunction function 1 with
  | error e => rfl
  | ok f =>
    rw [ok_bind, ok_bind, values]
    cases value unit argument <;> rfl

/-- The product with a number that is written out. -/
theorem value_mul_literal (unit : AngleUnit) (e : Expr) (c : Binary64) :
    value unit (binary .mul e (literal c)) = value unit e >>= fun x => .ok (x * c) := by
  rw [value, value]
  cases value unit e <;> rfl

/-- The function of a call has the name of the call, in lower case. -/
theorem name_of_resolveFunction {count : Nat} (h : resolveFunction function count = .ok f) :
    f.name = Text.asciiLower function := by
  simpa using List.find?_some (ofName?_of_resolveFunction h)

/-- A function that takes an angle converts it first. -/
theorem value_degrees_of_takesAngle (hf : f.name ∈ ["sin", "cos", "tan"]) (x : Binary64) :
    f.value .degrees x = f.value .radians (x * radiansPerDegree) := by
  cases f with
  | sin | cos | tan => rfl
  | _ => exact absurd hf (by decide)

/-- A function that gives an angle converts it last, where it does not refuse its argument. -/
theorem value_degrees_of_givesAngle (hf : f.name ∈ ["asin", "acos", "atan"]) (x : Binary64) :
    f.value .degrees x = f.value .radians x >>= fun y => .ok (y * degreesPerRadian) := by
  cases f with
  | asin | acos =>
    simp only [Builtin.value]
    cases Builtin.unitInterval _ x <;> rfl
  | atan => rfl
  | _ => exact absurd hf (by decide)

/-- Of no other function does the value depend on the unit. -/
theorem value_degrees_of_unitFree (htakes : f.name ∉ ["sin", "cos", "tan"])
    (hgives : f.name ∉ ["asin", "acos", "atan"]) (x : Binary64) :
    f.value .degrees x = f.value .radians x := by
  cases f with
  | sin | cos | tan => exact absurd (by decide) htakes
  | asin | acos | atan => exact absurd (by decide) hgives
  | _ => rfl

/-- A call of one argument in degrees is its conversion in radians, if the argument is. -/
theorem value_convertedCall_singleton {argument' : Expr}
    (h : value .degrees argument = value .radians argument') :
    value .degrees (call function [argument]) =
      value .radians (convertedCall function [argument']) := by
  rw [value_call_singleton, h, convertedCall]
  cases hf : resolveFunction function 1 with
  -- Without a function the argument is not looked at, and a product does not change that.
  | error e =>
    have hcall : ∀ e', value .radians (call function [e']) = .error e := by
      intro e'
      rw [value_call_singleton, hf, error_bind]
    split_ifs
    · rw [hcall, error_bind]
    · rw [value_mul_literal, hcall, error_bind, error_bind]
    · rw [hcall, error_bind]
  | ok f =>
    have htakes : TakesAngle function ↔ f.name ∈ ["sin", "cos", "tan"] := by
      rw [name_of_resolveFunction hf, TakesAngle]
    have hgives : GivesAngle function ↔ f.name ∈ ["asin", "acos", "atan"] := by
      rw [name_of_resolveFunction hf, GivesAngle]
    rw [ok_bind]
    split_ifs with ht hg
    · rw [value_call_singleton, hf, ok_bind, value_mul_literal]
      cases value .radians argument' with
      | error e => rfl
      | ok x => exact value_degrees_of_takesAngle (htakes.1 ht) x
    · rw [value_mul_literal, value_call_singleton, hf, ok_bind]
      cases value .radians argument' with
      | error e => rfl
      | ok x => exact value_degrees_of_givesAngle (hgives.1 hg) x
    · rw [value_call_singleton, hf, ok_bind]
      cases value .radians argument' with
      | error e => rfl
      | ok x => exact value_degrees_of_unitFree (mt htakes.2 ht) (mt hgives.2 hg) x

/-- A call with another number of arguments fails before they are evaluated. -/
theorem value_call_of_length_ne {arguments arguments' : List Expr} (h : arguments.length ≠ 1)
    (hlength : arguments'.length = arguments.length) (unit unit' : AngleUnit) :
    value unit (call function arguments) = value unit' (call function arguments') := by
  rw [value, value, hlength]
  cases hf : resolveFunction function arguments.length with
  | error e => rfl
  | ok f => exact absurd (resolveFunction_eq_ok hf) h

/-! ## Trees -/

/-- As many trees in radians. -/
theorem length_allInRadians (es : List Expr) : (allInRadians es).length = es.length := by
  induction es with
  | nil => rw [allInRadians]
  | cons first others ih => rw [allInRadians, List.length_cons, List.length_cons, ih]

/-- A tree in degrees has the value of its conversion in radians. -/
theorem value_inRadians : ∀ e : Expr, value .degrees e = value .radians e.inRadians
  | literal _ => by rw [inRadians, value, value]
  | name _ => by rw [inRadians, value, value]
  | negate operand => by rw [inRadians, value, value, value_inRadians operand]
  | binary _ left right => by
    rw [inRadians, value, value, value_inRadians left, value_inRadians right]
  | call function [] => by
    rw [inRadians, allInRadians]
    exact value_call_of_length_ne (by simp) rfl ..
  | call function [argument] => by
    rw [inRadians, allInRadians, allInRadians]
    exact value_convertedCall_singleton (value_inRadians argument)
  | call function (first :: second :: others) => by
    rw [inRadians, allInRadians, allInRadians, convertedCall]
    · exact value_call_of_length_ne (by simp) (by simp [length_allInRadians]) ..
    · simp

mutual

/-- A tree without angles has nothing to be written out. -/
theorem inRadians_of_isUnitFree : ∀ e : Expr, e.IsUnitFree → e.inRadians = e
  | literal _, _ => by rw [inRadians]
  | name _, _ => by rw [inRadians]
  | negate operand, h => by
    rw [IsUnitFree] at h
    rw [inRadians, inRadians_of_isUnitFree operand h]
  | binary _ left right, h => by
    rw [IsUnitFree] at h
    rw [inRadians, inRadians_of_isUnitFree left h.1, inRadians_of_isUnitFree right h.2]
  | call function arguments, h => by
    rw [IsUnitFree] at h
    rw [inRadians, allInRadians_of_allUnitFree arguments h.2]
    unfold convertedCall
    split
    · obtain ⟨htakes, hgives⟩ := h.1 rfl
      rw [if_neg htakes, if_neg hgives]
    · rfl

/-- Trees without angles have nothing to be written out. -/
theorem allInRadians_of_allUnitFree : ∀ es : List Expr, AllUnitFree es → allInRadians es = es
  | [], _ => by rw [allInRadians]
  | first :: others, h => by
    rw [AllUnitFree] at h
    rw [allInRadians, inRadians_of_isUnitFree first h.1, allInRadians_of_allUnitFree others h.2]

end

/-- **Degrees are radians with the conversions written out.** Of every tree: evaluating it in
degrees gives the value, or the failure, that evaluating in radians gives of the tree in which every
angle that a function takes is multiplied by the radians of a degree, and every angle that a
function gives by the degrees of a radian. A tree in which no function of one argument takes or
gives an angle is evaluated in both units alike. -/
theorem evaluate_degrees_eq_evaluate_inRadians :
    (∀ e : Expr, evaluate .degrees e = evaluate .radians e.inRadians) ∧
    ∀ e : Expr, e.IsUnitFree → evaluate .degrees e = evaluate .radians e := by
  have hconverted : ∀ e : Expr, evaluate .degrees e = evaluate .radians e.inRadians := fun e => by
    rw [evaluate, evaluate, value_inRadians]
  refine ⟨hconverted, fun e he => ?_⟩
  rw [hconverted, inRadians_of_isUnitFree e he]

end Calculator.Expr
