import Calculator.Proofs.Evaluation.Check
import Calculator.Proofs.LetterCase.Parsing

/-!
# Names are told apart without their case

Both tables of names are looked up in lower case, so a tree with its names in lower case is checked
and evaluated like the tree itself, and a name that is in neither table is shown in lower case
(`value_lowered`, `check_lowered`). With what holds of the lexemes and of the parser this makes a
whole text independent of the case of its letters (`asciiLower_changes_names_only`).

`mapError_bind` carries the change of the failure through a sequence of steps. The steps that
compute show no name, and their failures stay as they are.
-/

namespace Calculator

open Text

variable {unit : AngleUnit}

/-! ## The tables -/

/-- Functions are found in any case. -/
theorem Builtin.ofName?_asciiLower (s : String) :
    Builtin.ofName? (asciiLower s) = Builtin.ofName? s := by
  rw [ofName?, asciiLower_asciiLower, ofName?]

/-- Constants are found in any case. -/
theorem Constant.ofName?_asciiLower (s : String) :
    Constant.ofName? (asciiLower s) = Constant.ofName? s := by
  rw [ofName?, asciiLower_asciiLower, ofName?]

/-- The failure of a computation shows no name. -/
theorem Failure.IsRefusal.lowered_eq {f : Failure} (h : f.IsRefusal) : f.lowered = f := by
  cases f with
  | invalid _ => rfl
  | divisionByZero => rfl
  | _ => exact h.elim

/-- A computation that shows no name fails in the same way. -/
theorem mapError_lowered {α : Type} {r : Except Failure α} (h : ∀ f, r = .error f → f.lowered = f) :
    r.mapError Failure.lowered = r := by
  cases r with
  | error f =>
    change Except.error f.lowered = _
    rw [h f rfl]
  | ok x => rfl

namespace Expr

/-- The constant of a name in lower case. -/
theorem resolveConstant_asciiLower (s : String) :
    resolveConstant (asciiLower s) = (resolveConstant s).mapError Failure.lowered := by
  unfold resolveConstant
  rw [Constant.ofName?_asciiLower]
  cases Constant.ofName? s <;> rfl

/-- The function of a name in lower case. -/
theorem resolveFunction_asciiLower (s : String) (n : Nat) :
    resolveFunction (asciiLower s) n = (resolveFunction s n).mapError Failure.lowered := by
  unfold resolveFunction
  rw [Builtin.ofName?_asciiLower]
  cases Builtin.ofName? s with
  | none => rfl
  | some b =>
    dsimp only
    split <;> rfl

/-- As many trees in lower case. -/
theorem length_allLowered (es : List Expr) : (allLowered es).length = es.length := by
  induction es with
  | nil => rw [allLowered]
  | cons first others ih => rw [allLowered, List.length_cons, List.length_cons, ih]

/-! ## Values and faults -/

mutual

/-- The value of a tree with its names in lower case. -/
theorem value_lowered (unit : AngleUnit) :
    ∀ e : Expr, value unit e.lowered = (value unit e).mapError Failure.lowered
  | literal _ => by
    rw [lowered, value]
    rfl
  | name s => by
    rw [lowered, value, value, resolveConstant_asciiLower, mapError_bind]
    rfl
  | negate operand => by
    rw [lowered, value, value, value_lowered unit operand, mapError_bind]
    rfl
  | binary o left right => by
    have ho : ∀ x y, (o.value x y).mapError Failure.lowered = o.value x y := fun x y =>
      mapError_lowered fun f hf => (isRefusal_of_operation hf).lowered_eq
    rw [lowered, value, value, value_lowered unit left, value_lowered unit right]
    simp only [mapError_bind, ho]
  | call s arguments => by
    rw [lowered, value, value, length_allLowered, resolveFunction_asciiLower,
      values_allLowered unit arguments, mapError_bind]
    cases hb : resolveFunction s arguments.length with
    | error f => rfl
    | ok b =>
      rw [mapError_ok, ok_bind, ok_bind, mapError_bind]
      cases hxs : values unit arguments with
      | error f => rfl
      | ok xs =>
        -- There are as many values as the function takes, so that it only may refuse them.
        have hlength : xs.length = b.arity := by
          rw [length_of_values hxs, resolveFunction_eq_ok hb]
        obtain ⟨x, rfl⟩ := List.length_eq_one_iff.1 hlength
        exact (mapError_lowered fun f hf => (isRefusal_of_builtin hf).lowered_eq).symm

/-- The values of some trees with their names in lower case. -/
theorem values_allLowered (unit : AngleUnit) :
    ∀ es : List Expr, values unit (allLowered es) = (values unit es).mapError Failure.lowered
  | [] => by
    rw [allLowered, values]
    rfl
  | first :: others => by
    rw [allLowered, values, values, value_lowered unit first, values_allLowered unit others]
    simp only [mapError_bind]
    rfl

end

mutual

/-- The check of a tree with its names in lower case. -/
theorem check_lowered : ∀ e : Expr, check e.lowered = (check e).mapError Failure.lowered
  | literal _ => by
    rw [lowered, check]
    rfl
  | name s => by
    rw [lowered, check, check, resolveConstant_asciiLower]
    cases resolveConstant s <;> rfl
  | negate operand => by rw [lowered, check, check, check_lowered operand]
  | binary _ left right => by
    rw [lowered, check, check, check_lowered left, check_lowered right, mapError_bind]
  | call s arguments => by
    rw [lowered, check, check, length_allLowered, resolveFunction_asciiLower,
      checkAll_allLowered arguments]
    cases resolveFunction s arguments.length <;> rfl

/-- The check of some trees with their names in lower case. -/
theorem checkAll_allLowered :
    ∀ es : List Expr, checkAll (allLowered es) = (checkAll es).mapError Failure.lowered
  | [] => by
    rw [allLowered, checkAll]
    rfl
  | first :: others => by
    rw [allLowered, checkAll, checkAll, check_lowered first, checkAll_allLowered others,
      mapError_bind]

end

/-- A tree with its names in lower case is evaluated like the tree. -/
theorem evaluate_lowered (unit : AngleUnit) (e : Expr) :
    evaluate unit e.lowered = (evaluate unit e).mapError Failure.lowered := by
  have hfinite : ∀ x, (requireFinite x).mapError Failure.lowered = requireFinite x := by
    intro x
    unfold requireFinite
    split_ifs <;> rfl
  rw [evaluate, evaluate, value_lowered, mapError_bind]
  simp only [hfinite]

end Expr

/-! ## Texts -/

/-- A text in lower case is evaluated like the text. -/
theorem evaluateText_asciiLower (s : String) (unit : AngleUnit) :
    evaluateText (asciiLower s) unit = (evaluateText s unit).mapError Failure.lowered := by
  rw [evaluateText, evaluateText, Expr.ofText_asciiLower, mapError_bind]
  cases Expr.ofText s with
  | error f => rfl
  | ok e => exact Expr.evaluate_lowered unit e

/-- A text in lower case is checked like the text. -/
theorem validateText_asciiLower (s : String) :
    validateText (asciiLower s) = (validateText s).mapError Failure.lowered := by
  rw [validateText, validateText, Expr.ofText_asciiLower, mapError_bind]
  cases Expr.ofText s with
  | error f => rfl
  | ok e => exact Expr.check_lowered e

/-- **The case of letters does not matter.** Of every text, and in every unit: the text in ASCII
lower case has the tree of the text with all names in lower case, the same value and the same
verdict of the check. Where the text fails at one of these, the text in lower case fails in the same
way, with the same numbers and positions; a name or a token that the failure shows is then in lower
case. -/
theorem asciiLower_changes_names_only (s : String) (unit : AngleUnit) :
    Expr.ofText (asciiLower s) = ((Expr.ofText s).map Expr.lowered).mapError Failure.lowered ∧
    evaluateText (asciiLower s) unit = (evaluateText s unit).mapError Failure.lowered ∧
    validateText (asciiLower s) = (validateText s).mapError Failure.lowered :=
  ⟨Expr.ofText_asciiLower s, evaluateText_asciiLower s unit, validateText_asciiLower s⟩

end Calculator
