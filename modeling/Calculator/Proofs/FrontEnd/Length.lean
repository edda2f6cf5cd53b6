import Mathlib.Data.List.DropRight
import Calculator.Proofs.Evaluation.Check
import Calculator.Proofs.Parser.Viable
import Calculator.Proofs.Token.Exactness
import Calculator.Tool

/-!
# Which failures are about the length of an expression

Only `accept` measures an expression. Whatever fails behind it, in the scan, in the parser, in an
operation or at the end, says nothing of a length (`fitting_evaluateText`). `Fitting` is closed
under steps one after the other, so of a tree this is one step for each of its constructors.

A failure over a length is the one of which `Tool.complaint` says less than `Failure.message`, so
what they say of any other is the same (`complaint_of_not_isOverLong`). Trimming a text a second
time changes nothing, and so a text is accepted like the trimmed text (`accept_trim`).
-/

namespace Calculator

variable {α β : Type}

/-- The failures over the length of an expression. -/
def Failure.IsOverLong : Failure → Prop
  | invalid (.tooLong _) => True
  | _ => False

/-- A computation that does not fail over a length. -/
def Fitting (x : Except Failure α) : Prop := ∀ f, x = .error f → ¬ f.IsOverLong

/-- A success is no failure. -/
theorem fitting_ok (a : α) : Fitting (.ok a) := nofun

/-- A failure that is not over a length. -/
theorem fitting_error {f : Failure} (h : ¬ f.IsOverLong) :
    Fitting (.error f : Except Failure α) := by
  rintro g ⟨⟩
  exact h

/-- A choice does not fail over a length if neither side does. -/
theorem fitting_ite {p : Prop} [Decidable p] {x y : Except Failure α} (hx : Fitting x)
    (hy : Fitting y) : Fitting (if p then x else y) := by
  split
  · exact hx
  · exact hy

/-- Two steps do not fail over a length if neither of them does. -/
theorem Fitting.bind {x : Except Failure α} {k : α → Except Failure β} (hx : Fitting x)
    (hk : ∀ a, Fitting (k a)) : Fitting (x >>= k) := by
  intro f h
  rcases bind_eq_error.1 h with h | ⟨a, -, h⟩
  · exact hx f h
  · exact hk a f h

/-! ## Evaluation -/

namespace Expr

/-- An operation fails over its operands. -/
theorem fitting_operation (o : Operation) (x y : Binary64) : Fitting (o.value x y) := by
  cases o with
  | div => exact fitting_ite (fitting_error id) (fitting_ok _)
  | pow => exact fitting_ite (fitting_error id) (fitting_ok _)
  | _ => exact fitting_ok _

/-- A function of one number fails over that number. -/
theorem fitting_builtin (b : Builtin) (unit : AngleUnit) (x : Binary64) :
    Fitting (b.value unit x) := by
  have hunit : Fitting (b.unitInterval x) := fitting_ite (fitting_ok _) (fitting_error id)
  have hpositive : Fitting (b.positive x) := fitting_ite (fitting_error id) (fitting_ok _)
  cases b with
  | sqrt => exact fitting_ite (fitting_error id) (fitting_ok _)
  | asin | acos => exact hunit.bind fun _ => fitting_ok _
  | log | ln => exact hpositive.bind fun _ => fitting_ok _
  | _ => exact fitting_ok _

/-- A function of a list of numbers fails over one number or over how many there are. -/
theorem fitting_apply (b : Builtin) (unit : AngleUnit) :
    ∀ xs : List Binary64, Fitting (b.apply unit xs)
  | [] => fitting_error id
  | [x] => fitting_builtin b unit x
  | _ :: _ :: _ => fitting_error id

/-- A failure of names and counts is not over a length. -/
theorem fitting_of_isStatic {x : Except Failure α} (h : ∀ f, x = .error f → f.IsStatic) :
    Fitting x := by
  intro f hf
  have hstatic := h f hf
  cases f with
  | unknownFunction | wrongArity | unknownIdentifier => exact id
  | _ => exact hstatic.elim

mutual

/-- The value of a tree fails over names, counts and numbers. -/
theorem fitting_value (unit : AngleUnit) : ∀ e : Expr, Fitting (value unit e)
  | literal _ => by
    rw [value]
    exact fitting_ok _
  | name _ => by
    rw [value]
    exact (fitting_of_isStatic fun _ => isStatic_of_resolveConstant).bind fun _ => fitting_ok _
  | negate operand => by
    rw [value]
    exact (fitting_value unit operand).bind fun _ => fitting_ok _
  | binary o left right => by
    rw [value]
    exact (fitting_value unit left).bind fun x => (fitting_value unit right).bind fun y =>
      fitting_operation o x y
  | call _ arguments => by
    rw [value]
    exact (fitting_of_isStatic fun _ => isStatic_of_resolveFunction).bind fun f =>
      (fitting_values unit arguments).bind fun xs => fitting_apply f unit xs

/-- The values of some trees fail over names, counts and numbers. -/
theorem fitting_values (unit : AngleUnit) : ∀ es : List Expr, Fitting (values unit es)
  | [] => by
    rw [values]
    exact fitting_ok _
  | first :: others => by
    rw [values]
    exact (fitting_value unit first).bind fun _ => (fitting_values unit others).bind fun _ =>
      fitting_ok _

end

/-- A value that is no finite number is no length. -/
theorem fitting_requireFinite (x : Binary64) : Fitting (requireFinite x) :=
  fitting_ite (fitting_error id) (fitting_ite (fitting_error id) (fitting_ok _))

/-! ## Reading -/

/-- Lexemes fail over one of them, over their end or over the levels. -/
theorem fitting_ofLexemes (s : List Lexeme) : Fitting (ofLexemes s) := by
  intro f hf
  have hblamed := located_whole (beforeEnd s)
  rw [Located, ofLexemes_eq_error.1 hf] at hblamed
  cases hblamed <;> exact id

/-- A text fails over a character, over a run of digits and points, or over its lexemes. -/
theorem fitting_ofText (text : String) : Fitting (ofText text) := by
  refine Fitting.bind (fun f hf => ?_) fitting_ofLexemes
  have hjudged := Lexeme.judged_ofText text
  rw [hf] at hjudged
  obtain ⟨_, _, -, hoffends, -⟩ := hjudged
  cases hoffends <;> exact id

end Expr

/-- Evaluating a text does not fail over its length. -/
theorem fitting_evaluateText (text : String) (unit : AngleUnit) :
    Fitting (evaluateText text unit) :=
  (Expr.fitting_ofText text).bind fun e =>
    (Expr.fitting_value unit e).bind Expr.fitting_requireFinite

/-! ## Trimmed texts -/

namespace Text

/-- Trimming takes white space from the front and from the back. -/
theorem trimChars_eq (text : List Char) :
    trimChars text = (text.dropWhile isBlank).rdropWhile isBlank := rfl

/-- A trimmed text does not begin with white space. -/
theorem dropWhile_trimChars (text : List Char) :
    (trimChars text).dropWhile isBlank = trimChars text := by
  rw [List.dropWhile_eq_self_iff, trimChars_eq]
  intro hl
  -- What the back is taken from begins with the same character.
  obtain ⟨back, hback⟩ := List.rdropWhile_prefix isBlank (text.dropWhile isBlank)
  have hne : text.dropWhile isBlank ≠ [] := by
    intro hnil
    rw [hnil] at hl
    exact absurd hl (by decide)
  have hhead := List.head_dropWhile_not isBlank hne
  rw [List.head_eq_getElem, List.getElem_of_eq hback.symm, List.getElem_append_left hl] at hhead
  rw [hhead]
  exact Bool.false_ne_true

/-- Trimming a trimmed text changes nothing. -/
@[simp] theorem trimChars_trimChars (text : List Char) :
    trimChars (trimChars text) = trimChars text := by
  rw [trimChars_eq (trimChars text), dropWhile_trimChars, trimChars_eq, List.rdropWhile_idempotent]

/-- Trimming comes first in normalizing. -/
@[simp] theorem normalize_trim (text : String) : normalize (trim text) = normalize text := by
  rw [normalize, trim, String.toList_ofList, trimChars_trimChars, normalize]

end Text

/-! ## Accepted expressions -/

/-- A text whose normal form has more bytes than the configuration allows. -/
def Config.Exceeds (config : Config) (text : String) : Prop :=
  config.maxInputLength < Text.byteLength (Text.normalize text).toList

instance (config : Config) (text : String) : Decidable (config.Exceeds text) :=
  inferInstanceAs (Decidable (_ < _))

variable {config : Config} {text : String}

/-- An expression that is too long is refused. -/
theorem accept_of_exceeds (h : config.Exceeds text) :
    accept config text = .error (.invalid (.tooLong config.maxInputLength)) := by
  rw [Config.Exceeds] at h
  simp only [accept, if_pos h]

/-- All others are accepted in their normal form. -/
theorem accept_of_not_exceeds (h : ¬ config.Exceeds text) :
    accept config text = .ok (Text.normalize text) := by
  rw [Config.Exceeds] at h
  simp only [accept, if_neg h]

/-- A text is accepted like the trimmed text. -/
@[simp] theorem accept_trim (config : Config) (text : String) :
    accept config (Text.trim text) = accept config text := by
  rw [accept, accept, Text.normalize_trim]

/-! ## Failures in words -/

/-- A failure that is not over a length is put into words in one way. -/
theorem complaint_of_not_isOverLong {f : Failure} (h : ¬ f.IsOverLong) :
    Tool.complaint f = f.message := by
  unfold Tool.complaint
  split
  · exact absurd trivial h
  · rfl

/-- An invalid expression is said to be one before the reason. -/
theorem message_invalid (reason : Invalid) :
    (Failure.invalid reason).message = "invalid expression: " ++ reason.message := rfl

end Calculator
