import Calculator.Engine
import Calculator.Proofs.Except

/-!
# The check finds what evaluation would trip over

`check` and `value` are two recursions that look at names and argument counts in the same order, but
only `value` computes, and a computation that fails hides what stands behind it. `Agrees` says what
this leaves of the order: where the check finds nothing, evaluation fails only over a computation,
and where it finds a fault, evaluation fails over the same one or over a computation before it.
`agrees_check` proves it of every tree by induction, with one lemma for a sequence of two steps
(`Agrees.seq`) and one for a computation at the end (`Agrees.bind`). A call passes its function as
many values as it has arguments, so the count that `Builtin.apply` makes again finds nothing new.
-/

namespace Calculator

/-- The failures that lie in a name or in a number of arguments. -/
def Failure.IsStatic : Failure → Prop
  | unknownFunction _ | wrongArity _ _ | unknownIdentifier _ => True
  | _ => False

/-- The failures that lie in a computation on the way. -/
def Failure.IsComputed : Failure → Prop
  | invalid _ | divisionByZero => True
  | _ => False

/-- The failures by which an operation or a function refuses its operands. -/
def Failure.IsRefusal : Failure → Prop
  | invalid reason => reason ≠ .notANumber
  | divisionByZero => True
  | _ => False

/-- A refusal is a failure of a computation. -/
theorem Failure.IsRefusal.isComputed {f : Failure} (h : f.IsRefusal) : f.IsComputed := by
  cases f with
  | invalid _ => trivial
  | divisionByZero => trivial
  | _ => exact h.elim

/-- A failure on the way is not one of names and counts. -/
theorem Failure.IsComputed.not_isStatic {f : Failure} (h : f.IsComputed) : ¬ f.IsStatic := by
  cases f with
  | invalid _ => exact id
  | divisionByZero => exact id
  | _ => exact h.elim

namespace Expr

variable {α β γ : Type} {unit : AngleUnit}

/-- What a check may say of a computation `v`: if it finds nothing then `v` fails only over a
computation, and if it finds a fault then `v` fails over that or over a computation. -/
def Agrees : Except Failure Unit → Except Failure α → Prop
  | .ok (), v => ∀ f, v = .error f → f.IsComputed
  | .error e, v => e.IsStatic ∧ ∃ f, v = .error f ∧ (f = e ∨ f.IsComputed)

/-- A computation at the end adds only failures of its own. -/
theorem Agrees.bind {c : Except Failure Unit} {v : Except Failure α} {k : α → Except Failure β}
    (h : Agrees c v) (hk : ∀ x, v = .ok x → ∀ f, k x = .error f → f.IsComputed) :
    Agrees c (v >>= k) := by
  cases v with
  | error f =>
    rw [error_bind]
    -- What comes last does not run.
    cases c with
    | ok _ =>
      rintro g ⟨⟩
      exact h f rfl
    | error e =>
      obtain ⟨he, g, hg, hgf⟩ := h
      cases hg
      exact ⟨he, f, rfl, hgf⟩
  | ok x =>
    cases c with
    | ok _ => exact hk x rfl
    | error e =>
      obtain ⟨-, f, hf, -⟩ := h
      cases hf

/-- Two checks one after the other agree with two computations one after the other. Where the first
computation fails by itself, the second check may still find a fault. -/
theorem Agrees.seq {c c' : Except Failure Unit} {v : Except Failure α} {v' : Except Failure β}
    {k : α → β → Except Failure γ} (h : Agrees c v) (h' : Agrees c' v')
    (hk : ∀ x y f, k x y = .error f → f.IsComputed) :
    Agrees (c >>= fun _ => c') (v >>= fun x => v' >>= k x) := by
  cases c with
  -- The first check ends both recursions.
  | error e =>
    obtain ⟨he, f, rfl, hf⟩ := h
    exact ⟨he, f, rfl, hf⟩
  | ok _ =>
    rw [ok_bind]
    cases v with
    | ok x => exact h'.bind fun y _ => hk x y
    | error f =>
      -- The first computation hides whatever the second check finds.
      have hf : f.IsComputed := h f rfl
      cases c' with
      | ok _ =>
        rintro g ⟨⟩
        exact hf
      | error e' => exact ⟨h'.1, f, rfl, .inr hf⟩

/-! ## The computations of evaluation -/

/-- An operation fails only by refusing its operands. -/
theorem isRefusal_of_operation {o : Operation} {x y : Binary64} {f : Failure}
    (h : o.value x y = .error f) : f.IsRefusal := by
  cases o with
  | div =>
    simp only [Operation.value] at h
    split at h
    · cases h
      trivial
    · cases h
  | pow =>
    simp only [Operation.value] at h
    split at h
    · cases h
      nofun
    · cases h
  | _ => cases h

/-- A number outside [-1, 1] is refused. -/
theorem isRefusal_of_unitInterval {b : Builtin} {x : Binary64} {f : Failure}
    (h : b.unitInterval x = .error f) : f.IsRefusal := by
  unfold Builtin.unitInterval at h
  split at h
  · cases h
  · cases h
    nofun

/-- A number that is not positive is refused. -/
theorem isRefusal_of_positive {b : Builtin} {x : Binary64} {f : Failure}
    (h : b.positive x = .error f) : f.IsRefusal := by
  unfold Builtin.positive at h
  split at h
  · cases h
    nofun
  · cases h

/-- A function of one number fails only by refusing it. -/
theorem isRefusal_of_builtin {b : Builtin} {x : Binary64} {f : Failure}
    (h : b.value unit x = .error f) : f.IsRefusal := by
  cases b with
  | sqrt =>
    simp only [Builtin.value] at h
    split at h
    · cases h
      nofun
    · cases h
  | asin | acos =>
    rcases bind_eq_error.1 h with h | ⟨y, -, h⟩
    · exact isRefusal_of_unitInterval h
    · cases h
  | log | ln =>
    rcases bind_eq_error.1 h with h | ⟨y, -, h⟩
    · exact isRefusal_of_positive h
    · cases h
  | _ => cases h

/-- A function that is given as many numbers as it takes fails over a computation. -/
theorem isComputed_of_apply {b : Builtin} {xs : List Binary64} (hxs : xs.length = b.arity)
    {f : Failure} (h : b.apply unit xs = .error f) : f.IsComputed := by
  obtain ⟨x, rfl⟩ := List.length_eq_one_iff.1 hxs
  exact (isRefusal_of_builtin h).isComputed

/-- There are as many values as trees. -/
theorem length_of_values {es : List Expr} {xs : List Binary64} (h : values unit es = .ok xs) :
    xs.length = es.length := by
  induction es generalizing xs with
  | nil =>
    cases h
    rfl
  | cons first others ih =>
    rw [values, bind_eq_ok] at h
    obtain ⟨x, -, h⟩ := h
    rw [bind_eq_ok] at h
    obtain ⟨ys, hys, h⟩ := h
    cases h
    rw [List.length_cons, List.length_cons, ih hys]

/-! ## Names and counts -/

/-- A name may be no constant. -/
theorem isStatic_of_resolveConstant {s : String} {f : Failure}
    (h : resolveConstant s = .error f) : f.IsStatic := by
  unfold resolveConstant at h
  cases hb : Constant.ofName? s with
  | none =>
    rw [hb] at h
    cases h
    trivial
  | some c =>
    rw [hb] at h
    cases h

/-- A name is looked up in both. -/
theorem agrees_constant (s : String) : Agrees (check (name s)) (value unit (name s)) := by
  rw [check, value]
  cases hc : resolveConstant s with
  | error f => exact ⟨isStatic_of_resolveConstant hc, f, rfl, .inl rfl⟩
  | ok c =>
    intro f hf
    cases hf

/-- The function of a call takes as many arguments as the call has. -/
theorem resolveFunction_eq_ok {s : String} {n : Nat} {b : Builtin}
    (h : resolveFunction s n = .ok b) : n = b.arity := by
  unfold resolveFunction at h
  cases hb : Builtin.ofName? s with
  | none =>
    rw [hb] at h
    cases h
  | some b' =>
    simp only [hb] at h
    split at h
    · rename_i hn
      cases h
      exact hn
    · cases h

/-- A function is missing or takes another number of arguments. -/
theorem isStatic_of_resolveFunction {s : String} {n : Nat} {f : Failure}
    (h : resolveFunction s n = .error f) : f.IsStatic := by
  unfold resolveFunction at h
  cases hb : Builtin.ofName? s with
  | none =>
    rw [hb] at h
    cases h
    trivial
  | some b =>
    simp only [hb] at h
    split at h
    · cases h
    · cases h
      trivial

/-- A call agrees if its arguments do. -/
theorem agrees_call {s : String} {es : List Expr} (h : Agrees (checkAll es) (values unit es)) :
    Agrees (check (call s es)) (value unit (call s es)) := by
  rw [check, value]
  cases hb : resolveFunction s es.length with
  | error f => exact ⟨isStatic_of_resolveFunction hb, f, rfl, .inl rfl⟩
  | ok b =>
    -- The count was checked against the arguments, and there are as many values.
    refine h.bind fun xs hxs f hf => isComputed_of_apply ?_ hf
    rw [length_of_values hxs, resolveFunction_eq_ok hb]

mutual

/-- The check agrees with evaluation on every tree. -/
theorem agrees_check (unit : AngleUnit) : ∀ e : Expr, Agrees (check e) (value unit e)
  | literal _ => nofun
  | name s => agrees_constant s
  | negate operand => by
    rw [check, value]
    exact (agrees_check unit operand).bind fun x _ => nofun
  | binary o left right => by
    rw [check, value]
    exact (agrees_check unit left).seq (agrees_check unit right)
      fun x y f hf => (isRefusal_of_operation hf).isComputed
  | call _ arguments => agrees_call (agrees_checkAll unit arguments)

/-- The check agrees with evaluation on every list of trees. -/
theorem agrees_checkAll (unit : AngleUnit) :
    ∀ es : List Expr, Agrees (checkAll es) (values unit es)
  | [] => nofun
  | first :: others => by
    rw [checkAll, values]
    exact (agrees_check unit first).seq (agrees_checkAll unit others) fun x xs => nofun

end

/-! ## The value of the whole tree -/

/-- A value that is no finite number is a failure, but none of names and counts. -/
theorem not_isStatic_of_requireFinite {x : Binary64} {f : Failure}
    (h : requireFinite x = .error f) : ¬ f.IsStatic := by
  unfold requireFinite at h
  split at h
  · cases h
    exact id
  · split at h
    · cases h
      exact id
    · cases h

/-- A failure on the way is the failure of the whole tree. -/
theorem evaluate_eq_error_of_value {e : Expr} {f : Failure} (h : value unit e = .error f) :
    evaluate unit e = .error f := by
  rw [evaluate, h, error_bind]

/-- A failure of names and counts arises on the way. -/
theorem value_eq_error_of_evaluate {e : Expr} {f : Failure} (h : evaluate unit e = .error f)
    (hf : f.IsStatic) : value unit e = .error f := by
  rcases bind_eq_error.1 h with h | ⟨x, -, h⟩
  · exact h
  · exact absurd hf (not_isStatic_of_requireFinite h)

/-- After a check that finds nothing, evaluation does not trip over names and counts. -/
theorem not_isStatic_of_check {e : Expr} {f : Failure} (hc : check e = .ok ())
    (h : evaluate unit e = .error f) : ¬ f.IsStatic := by
  have ha : Agrees (check e) (value unit e) := agrees_check unit e
  rw [hc] at ha
  intro hf
  exact (ha f (value_eq_error_of_evaluate h hf)).not_isStatic hf

/-- Where the check finds a fault, evaluation fails on the way, over it or over a computation. -/
theorem value_eq_error_of_check {e : Expr} {f : Failure} (hc : check e = .error f)
    (unit : AngleUnit) :
    f.IsStatic ∧ ∃ g, value unit e = .error g ∧ (g = f ∨ g.IsComputed) := by
  have ha : Agrees (check e) (value unit e) := agrees_check unit e
  rwa [hc] at ha

/-- A failure of names and counts in evaluation is what the check finds. -/
theorem check_eq_error_of_evaluate {e : Expr} {f : Failure} (h : evaluate unit e = .error f)
    (hf : f.IsStatic) : check e = .error f := by
  have hv : value unit e = .error f := value_eq_error_of_evaluate h hf
  -- The check finds a fault, and evaluation has only one failure.
  cases hc : check e with
  | ok _ => exact absurd hf (not_isStatic_of_check hc h)
  | error e' =>
    obtain ⟨-, g, hg, hgf⟩ := value_eq_error_of_check hc unit
    cases hv.symm.trans hg
    rcases hgf with rfl | hgc
    · rfl
    · exact absurd hf hgc.not_isStatic

/-- Neither a fault that the check finds nor a computation on the way is an overflow. -/
theorem ne_overflow_of_isStatic_or_isComputed {f g : Failure} (hf : f.IsStatic)
    (hg : g = f ∨ g.IsComputed) : g ≠ .overflow := by
  rintro rfl
  rcases hg with rfl | hg
  · exact hf
  · exact hg

/-- **The check and evaluation agree.** Of every tree and in every unit: after a check that finds
nothing, evaluation does not fail over a name or a number of arguments; where the check finds a
fault, evaluation fails on the way, over that fault or over a computation and never by overflow; and
where evaluation fails over a name or a number of arguments, the check finds the same. Of every
text: where reading it fails, checking and evaluating fail with it, and a text that the check
rejects has no value in any unit. -/
theorem check_agrees_with_evaluate :
    (∀ (e : Expr) (unit : AngleUnit),
      (check e = .ok () → ∀ f, evaluate unit e = .error f → ¬ f.IsStatic) ∧
      (∀ f, check e = .error f → f.IsStatic ∧
        ∃ g, value unit e = .error g ∧ evaluate unit e = .error g ∧
          (g = f ∨ g.IsComputed) ∧ g ≠ .overflow) ∧
      (∀ f, evaluate unit e = .error f → f.IsStatic → check e = .error f)) ∧
    (∀ text : String,
      (∀ f, ofText text = .error f →
        validateText text = .error f ∧ ∀ unit, evaluateText text unit = .error f) ∧
      (∀ f, validateText text = .error f → ∀ unit, ∃ g, evaluateText text unit = .error g)) := by
  refine ⟨fun e unit => ⟨fun hc f h => not_isStatic_of_check hc h, fun f hc => ?_,
    fun f h hf => check_eq_error_of_evaluate h hf⟩, fun text => ⟨fun f h => ?_, fun f h unit => ?_⟩⟩
  · obtain ⟨hf, g, hg, hgf⟩ := value_eq_error_of_check hc unit
    exact ⟨hf, g, hg, evaluate_eq_error_of_value hg, hgf,
      ne_overflow_of_isStatic_or_isComputed hf hgf⟩
  · refine ⟨?_, fun unit => ?_⟩
    · rw [validateText, h, error_bind]
    · rw [evaluateText, h, error_bind]
  -- Either the text is not read at all, or the check rejects its tree.
  · rcases bind_eq_error.1 h with h | ⟨e, he, hc⟩
    · exact ⟨f, by rw [evaluateText, h, error_bind]⟩
    · obtain ⟨-, g, hg, -⟩ := value_eq_error_of_check hc unit
      exact ⟨g, by rw [evaluateText, he, ok_bind, evaluate_eq_error_of_value hg]⟩

end Expr

end Calculator
