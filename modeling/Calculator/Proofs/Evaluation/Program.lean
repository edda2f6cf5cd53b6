import Calculator.Proofs.Evaluation.Check

/-!
# Evaluation as a linear program

A tree can be flattened into instructions for a machine with a stack of numbers (`Expr.program`).
Operands come before their operation, from left to right, and a call looks for its function and
counts its arguments before the first of them is computed. The machine stops at the first
instruction that fails; only at the end does it look at whether the number that is left is finite.

`evaluate_eq_execute` says that evaluating a tree is running its program. The induction is over the
tree, with the rest of the program and the stack left free (`run_program_append`): the program of a
tree, before any other instructions and on any stack, puts the value of the tree on the stack or
fails as the tree does. No instruction ever reports an infinity or a NaN (`not_isFinal_of_step`), and
so no run does.
-/

namespace Calculator

/-- An instruction of a machine with a stack of numbers. -/
inductive Instruction where
  /-- Puts a number on the stack. -/
  | push (x : Binary64)
  /-- Puts the constant with the given name on the stack. -/
  | constant (text : String)
  /-- Negates the number on top. -/
  | negate
  /-- Takes the right operand and then the left one, and puts the result on the stack. -/
  | operate (operation : Operation)
  /-- Looks for the function with the given name. -/
  | find (function : String)
  /-- Compares the number of arguments with what the function takes. -/
  | count (function : String) (arguments : Nat)
  /-- Takes the arguments, the last one first, and puts the value of the function on the stack. -/
  | apply (function : String) (arguments : Nat)

/-- Why the machine stops before the end of a program. -/
inductive Stop where
  /-- An instruction fails. -/
  | failure (f : Failure)
  /-- An instruction does not find what it needs on the stack, or not the function it belongs to. -/
  | stuck

namespace Instruction

/-- What an instruction does to the stack, whose top comes first. -/
def step (unit : AngleUnit) : Instruction → List Binary64 → Except Stop (List Binary64)
  | push x, stack => .ok (x :: stack)
  | constant text, stack =>
    match Constant.ofName? text with
    | none => .error (.failure (.unknownIdentifier text))
    | some c => .ok (c.value :: stack)
  | negate, x :: stack => .ok (-x :: stack)
  | operate operation, y :: x :: stack =>
    (operation.value x y).mapError .failure >>= fun z => .ok (z :: stack)
  | find function, stack =>
    match Builtin.ofName? function with
    | none => .error (.failure (.unknownFunction function))
    | some _ => .ok stack
  | count function arguments, stack =>
    match Builtin.ofName? function with
    | none => .error .stuck
    | some f =>
      if arguments = f.arity then .ok stack
      else .error (.failure (.wrongArity f.arity arguments))
  | apply function arguments, stack =>
    match Builtin.ofName? function with
    | none => .error .stuck
    | some f =>
      if stack.length < arguments then .error .stuck
      else (f.apply unit (stack.take arguments).reverse).mapError .failure >>= fun x =>
        .ok (x :: stack.drop arguments)
  | _, _ => .error .stuck

/-- Runs a program on a stack, up to the first instruction that fails. -/
def run (unit : AngleUnit) : List Instruction → List Binary64 → Except Stop (List Binary64)
  | [], stack => .ok stack
  | first :: others, stack => first.step unit stack >>= run unit others

/-- Runs a program on the empty stack. The one number that it leaves has to be finite. -/
def execute (unit : AngleUnit) (program : List Instruction) : Except Stop Binary64 :=
  run unit program [] >>= fun
    | [x] =>
      if x.isNaN then .error (.failure (.invalid .notANumber))
      else if x.isInfinite then .error (.failure .overflow)
      else .ok x
    | _ => .error .stuck

end Instruction

namespace Expr

mutual

/-- The program of a tree. -/
def program : Expr → List Instruction
  | literal x => [.push x]
  | name text => [.constant text]
  | negate operand => program operand ++ [.negate]
  | binary operation left right => program left ++ (program right ++ [.operate operation])
  | call function arguments =>
    .find function :: .count function arguments.length ::
      (programs arguments ++ [.apply function arguments.length])

/-- The programs of a list of trees, one after the other. -/
def programs : List Expr → List Instruction
  | [] => []
  | first :: others => program first ++ programs others

end

end Expr

/-! ## Only the end of a program asks for a finite number -/

/-- The failures that say that the value of the whole expression is no finite number. -/
def Failure.IsFinal : Failure → Prop
  | overflow | invalid .notANumber => True
  | _ => False

variable {unit : AngleUnit} {f : Failure}

/-- A refusal is about the operands, not about the value of the whole. -/
theorem Failure.IsRefusal.not_isFinal (h : f.IsRefusal) : ¬ f.IsFinal := by
  cases f with
  | invalid reason =>
    cases reason with
    | notANumber => exact absurd rfl h
    | _ => exact id
  | divisionByZero => exact id
  | _ => exact h.elim

/-- A function of a list of numbers passes on infinities and NaNs. -/
theorem not_isFinal_of_apply {b : Builtin} {xs : List Binary64} (h : b.apply unit xs = .error f) :
    ¬ f.IsFinal := by
  match xs, h with
  | [], h =>
    cases h
    exact id
  | [_], h => exact (Expr.isRefusal_of_builtin h).not_isFinal
  | _ :: _ :: _, h =>
    cases h
    exact id

/-- A failure stays the same failure for the machine. -/
theorem mapError_eq_failure {α : Type} {x : Except Failure α}
    (h : x.mapError Stop.failure = .error (.failure f)) : x = .error f := by
  cases x with
  | ok a => cases h
  | error g =>
    cases h
    rfl

namespace Instruction

/-- No instruction reports an infinity or a NaN. -/
theorem not_isFinal_of_step {i : Instruction} {stack : List Binary64}
    (h : i.step unit stack = .error (.failure f)) : ¬ f.IsFinal := by
  unfold step at h
  split at h
  -- In the order of the instructions.
  · cases h
  · split at h
    · cases h
      exact id
    · cases h
  · cases h
  · rcases bind_eq_error.1 h with h | ⟨z, -, h⟩
    · exact (Expr.isRefusal_of_operation (mapError_eq_failure h)).not_isFinal
    · cases h
  · split at h
    · cases h
      exact id
    · cases h
  · split at h
    · cases h
    · split at h
      · cases h
      · cases h
        exact id
  · split at h
    · cases h
    · split at h
      · cases h
      · rcases bind_eq_error.1 h with h | ⟨x, -, h⟩
        · exact not_isFinal_of_apply (mapError_eq_failure h)
        · cases h
  · cases h

/-- No run of a program reports an infinity or a NaN on the way. -/
theorem not_isFinal_of_run {program : List Instruction} {stack : List Binary64}
    (h : run unit program stack = .error (.failure f)) : ¬ f.IsFinal := by
  induction program generalizing stack with
  | nil => cases h
  | cons first others ih =>
    rw [run, bind_eq_error] at h
    rcases h with h | ⟨next, -, h⟩
    · exact not_isFinal_of_step h
    · exact ih h

/-! ## Running the program of a tree -/

/-- The arguments on top of the stack, the last one first, are what a function is applied to. -/
theorem step_apply {s : String} {b : Builtin} (hb : Builtin.ofName? s = some b)
    (xs stack : List Binary64) :
    (apply s xs.length).step unit (xs.reverse ++ stack) =
      (b.apply unit xs).mapError .failure >>= fun x => .ok (x :: stack) := by
  have hlen : ¬ (xs.reverse ++ stack).length < xs.length := by simp
  have htake : ((xs.reverse ++ stack).take xs.length).reverse = xs := by
    rw [List.take_left' (List.length_reverse ..), List.reverse_reverse]
  have hdrop : (xs.reverse ++ stack).drop xs.length = stack :=
    List.drop_left' (List.length_reverse ..)
  simp only [step, hb, if_neg hlen, htake, hdrop]

end Instruction

namespace Expr

open Instruction

/-- The function of a call is the one with its name. -/
theorem ofName?_of_resolveFunction {s : String} {n : Nat} {b : Builtin}
    (h : resolveFunction s n = .ok b) : Builtin.ofName? s = some b := by
  unfold resolveFunction at h
  cases hb : Builtin.ofName? s with
  | none =>
    rw [hb] at h
    cases h
  | some b' =>
    simp only [hb] at h
    split at h
    · cases h
      rfl
    · cases h

/-- A call looks for its function and counts its arguments before anything else. -/
theorem run_find_count (s : String) (n : Nat) (rest : List Instruction) (stack : List Binary64) :
    run unit (.find s :: .count s n :: rest) stack =
      (resolveFunction s n).mapError .failure >>= fun _ => run unit rest stack := by
  unfold resolveFunction
  cases hb : Builtin.ofName? s with
  | none =>
    simp only [run, step, hb]
    rfl
  | some b =>
    simp only [run, step, hb, ok_bind]
    split
    · rfl
    · rfl

mutual

/-- On any stack and before any other instructions, the program of a tree puts the value of the tree
on the stack, or fails as the tree does. -/
theorem run_program_append (unit : AngleUnit) : ∀ (e : Expr) (rest : List Instruction)
    (stack : List Binary64), run unit (e.program ++ rest) stack =
      (value unit e).mapError .failure >>= fun x => run unit rest (x :: stack)
  | literal x, rest, stack => rfl
  | name s, rest, stack => by
    rw [program, value, resolveConstant, List.singleton_append, run, step]
    cases Constant.ofName? s with
    | none => rfl
    | some c => rfl
  | negate operand, rest, stack => by
    rw [program, value, List.append_assoc, run_program_append unit operand]
    cases value unit operand with
    | error f => rfl
    | ok x => rfl
  | binary o left right, rest, stack => by
    rw [program, value, List.append_assoc, run_program_append unit left]
    cases value unit left with
    | error f => rfl
    | ok x =>
      change run unit (program right ++ [.operate o] ++ rest) (x :: stack) = _
      rw [List.append_assoc, run_program_append unit right]
      cases value unit right with
      | error f => rfl
      | ok y =>
        -- The right operand lies on the left one.
        change ((o.value x y).mapError .failure >>= fun z => .ok (z :: stack)) >>= run unit rest =
          (o.value x y).mapError .failure >>= fun z => run unit rest (z :: stack)
        cases o.value x y <;> rfl
  | call s arguments, rest, stack => by
    rw [program, value, List.cons_append, List.cons_append, run_find_count]
    cases hb : resolveFunction s arguments.length with
    | error f => rfl
    | ok b =>
      change run unit (programs arguments ++ [.apply s arguments.length] ++ rest) stack = _
      rw [List.append_assoc, run_programs_append unit arguments]
      cases hxs : values unit arguments with
      | error f => rfl
      | ok xs =>
        -- There are as many values as arguments, and they are taken from the stack again.
        change (apply s arguments.length).step unit (xs.reverse ++ stack) >>= run unit rest =
          (b.apply unit xs).mapError .failure >>= fun x => run unit rest (x :: stack)
        rw [← length_of_values hxs, step_apply (ofName?_of_resolveFunction hb)]
        cases b.apply unit xs <;> rfl

/-- The programs of a list of trees put the values of the trees on the stack, the first one first,
or fail as the trees do. -/
theorem run_programs_append (unit : AngleUnit) : ∀ (es : List Expr) (rest : List Instruction)
    (stack : List Binary64), run unit (programs es ++ rest) stack =
      (values unit es).mapError .failure >>= fun xs => run unit rest (xs.reverse ++ stack)
  | [], rest, stack => rfl
  | first :: others, rest, stack => by
    rw [programs, values, List.append_assoc, run_program_append unit first]
    cases value unit first with
    | error f => rfl
    | ok x =>
      change run unit (programs others ++ rest) (x :: stack) = _
      rw [run_programs_append unit others]
      cases values unit others with
      | error f => rfl
      | ok xs =>
        change run unit rest (xs.reverse ++ x :: stack) = run unit rest ((x :: xs).reverse ++ stack)
        rw [List.reverse_cons, List.append_assoc, List.singleton_append]

end

/-- The program of a tree leaves the value of the tree and nothing else. -/
theorem run_program (unit : AngleUnit) (e : Expr) :
    run unit e.program [] = (value unit e).mapError .failure >>= fun x => .ok [x] := by
  have h : run unit (e.program ++ []) [] = _ := run_program_append unit e [] []
  rwa [List.append_nil] at h

/-- **Evaluating a tree is running its program.** Of every tree and in every unit: the machine ends
with the value of the tree, or stops with the failure of the tree. Up to the end of the program it
reports no infinity and no NaN. -/
theorem evaluate_eq_execute (unit : AngleUnit) (e : Expr) :
    execute unit e.program = (evaluate unit e).mapError .failure ∧
      ∀ f : Failure, run unit e.program [] = .error (.failure f) → ¬ f.IsFinal := by
  refine ⟨?_, fun f h => not_isFinal_of_run h⟩
  rw [execute, run_program, evaluate]
  cases value unit e with
  | error f => rfl
  | ok x =>
    change (if x.isNaN then _ else _) = (requireFinite x).mapError Stop.failure
    unfold requireFinite
    split
    · rfl
    · split
      · rfl
      · rfl

end Expr

end Calculator
