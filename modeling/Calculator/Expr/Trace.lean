import Calculator.Expr.Evaluate

/-!
# The calls of an evaluation

Beside its value an evaluation leaves the calls of functions that succeeded, in the order in which
they did. The value is the one that evaluation without a trace gives.
-/

namespace Calculator

/-- A call of a function with its result. -/
structure Call where
  /-- The function. -/
  function : Builtin
  /-- The values of the arguments. -/
  arguments : List Binary64
  /-- The value of the call. -/
  result : Binary64

/-- A result, with the calls that led to it. -/
structure Traced (α : Type) where
  /-- The calls that succeeded. -/
  calls : List Call
  /-- The result. -/
  result : Except Failure α

namespace Traced

/-- A result without calls. -/
def ofResult {α : Type} (result : Except Failure α) : Traced α := ⟨[], result⟩

/-- Goes on with the result, unless it is a failure. -/
def andThen {α β : Type} (x : Traced α) (f : α → Traced β) : Traced β :=
  match x.result with
  | .ok a => ⟨x.calls ++ (f a).calls, (f a).result⟩
  | .error failure => ⟨x.calls, .error failure⟩

theorem result_andThen {α β : Type} (x : Traced α) (f : α → Traced β) :
    (x.andThen f).result = x.result.bind fun a => (f a).result := by
  unfold andThen
  cases x.result <;> rfl

/-- The call of a function, which counts once it has succeeded. -/
def ofCall (f : Builtin) (unit : AngleUnit) (arguments : List Binary64) : Traced Binary64 :=
  match f.apply unit arguments with
  | .ok x => ⟨[⟨f, arguments, x⟩], .ok x⟩
  | .error failure => ⟨[], .error failure⟩

theorem result_ofCall (f : Builtin) (unit : AngleUnit) (arguments : List Binary64) :
    (ofCall f unit arguments).result = f.apply unit arguments := by
  unfold ofCall
  cases f.apply unit arguments <;> rfl

end Traced

namespace Expr

mutual

/-- The value of a tree with the calls on the way. -/
def traced (unit : AngleUnit) : Expr → Traced Binary64
  | literal x => .ofResult (.ok x)
  | name text => .ofResult (value unit (name text))
  | negate operand => (traced unit operand).andThen fun x => .ofResult (.ok (-x))
  | binary operation left right =>
    (traced unit left).andThen fun x => (traced unit right).andThen fun y =>
      .ofResult (operation.value x y)
  | call function arguments =>
    (Traced.ofResult (resolveFunction function arguments.length)).andThen fun f =>
      (tracedAll unit arguments).andThen fun xs => .ofCall f unit xs

/-- The values of a list of trees with the calls on the way. -/
def tracedAll (unit : AngleUnit) : List Expr → Traced (List Binary64)
  | [] => .ofResult (.ok [])
  | first :: others =>
    (traced unit first).andThen fun x => (tracedAll unit others).andThen fun xs =>
      .ofResult (.ok (x :: xs))

end

mutual

theorem result_traced (unit : AngleUnit) : ∀ e : Expr, (traced unit e).result = value unit e
  | literal _ => by simp [traced, value, Traced.ofResult]
  | name _ => by simp [traced, Traced.ofResult]
  | negate operand => by
    simp only [traced, value, Traced.result_andThen, result_traced unit operand]
    rfl
  | binary _ left right => by
    simp only [traced, value, Traced.result_andThen, result_traced unit left,
      result_traced unit right]
    rfl
  | call _ arguments => by
    simp only [traced, value, Traced.result_andThen, Traced.result_ofCall,
      result_tracedAll unit arguments]
    rfl

theorem result_tracedAll (unit : AngleUnit) :
    ∀ es : List Expr, (tracedAll unit es).result = values unit es
  | [] => by simp [tracedAll, values, Traced.ofResult]
  | first :: others => by
    simp only [tracedAll, values, Traced.result_andThen, result_traced unit first,
      result_tracedAll unit others]
    rfl

end

end Expr

end Calculator
