import Calculator.Config
import Calculator.Engine
import Calculator.Json.Reader
import Calculator.Text.Bytes

/-!
# The calculator as a tool

A tool is called with arguments, as values or as JSON, and answers with a text. A failure of the
calculation is part of the answer. Only arguments that cannot be read are refused.
-/

namespace Calculator

/-- The arguments of a call. -/
structure ToolArguments where
  /-- The expression, as the caller wrote it. -/
  expression : String
  /-- The angle unit that is asked for, as the caller wrote it. -/
  angleUnit : Option String := none
  deriving DecidableEq

namespace ToolArguments

/-- The name of the expression. -/
def expressionKey : String := "expression"

/-- The name of the unit under which it is written. -/
def angleUnitKey : String := "angle_unit"

/-- The names of the unit under which it is read. -/
def angleUnitKeys : List String := [angleUnitKey, "angleUnit"]

/-- The unit that a JSON value gives: none for a null. -/
def unit? : Json → Option (Option String)
  | .null => some none
  | .string (some text) => some (some text)
  | _ => none

/-- The values of the members whose keys are among the given ones. -/
def valuesOf (members : List (Option String × Json)) (keys : List String) : List Json :=
  (members.filter fun m => m.1.any (keys.contains ·)).map Prod.snd

/-- The arguments that a JSON value spells: an object with an expression, at most one unit and other
members that are ignored, or an array of the expression and perhaps the unit. -/
def ofJson? : Json → Option ToolArguments
  | .object members =>
    if members.any fun m => m.1.isNone then none
    else
      match valuesOf members [expressionKey], valuesOf members angleUnitKeys with
      | [expression], [] => do return ⟨← expression.text?, none⟩
      | [expression], [unit] => do return ⟨← expression.text?, ← unit? unit⟩
      | _, _ => none
  | .array [expression] => do return ⟨← expression.text?, none⟩
  | .array [expression, unit] => do return ⟨← expression.text?, ← unit? unit⟩
  | _ => none

/-- The arguments that a text spells. -/
def ofText? (text : String) : Option ToolArguments :=
  (Json.ofText? text).bind ofJson?

/-- The arguments as a JSON object. A unit that is not asked for is left out. -/
def toJson (arguments : ToolArguments) : Json :=
  .ofMembers ((expressionKey, .ofString arguments.expression)
    :: (arguments.angleUnit.toList.map fun unit => (angleUnitKey, .ofString unit)))

end ToolArguments

/-- A normalized expression within the bound on its length in bytes. -/
def accept (config : Config) (text : String) : Except Failure String :=
  let expression := Text.normalize text
  if config.maxInputLength < Text.byteLength expression.toList then
    .error (.invalid (.tooLong config.maxInputLength))
  else .ok expression

namespace Tool

/-- The name of the tool. -/
def name : String := "calculator"

/-- What the tool does. -/
def description : String :=
  "Evaluates a math expression. Supports +, -, *, /, powers (^), parentheses, the constants pi and "
    ++ "e, and the functions sqrt, abs, sin, cos, tan, asin, acos, atan, log, ln, exp, floor, ceil "
    ++ "and round. Examples: \"2 + 3 * 4\", \"sqrt(16)\", \"sin(45)\"."

/-- The description of the tool and of its arguments. -/
def definition : Json :=
  .ofMembers [
    ("description", .ofString description),
    ("name", .ofString name),
    ("parameters", .ofMembers [
      ("properties", .ofMembers [
        (ToolArguments.angleUnitKey, .ofMembers [
          ("description", .ofString "Angle unit for trigonometric functions"),
          ("enum", .array [.ofString AngleUnit.degrees.name, .ofString AngleUnit.radians.name]),
          ("type", .ofString "string")]),
        (ToolArguments.expressionKey, .ofMembers [
          ("description",
            .ofString "Math expression to evaluate (e.g. 2 + 3 * 4, sqrt(16), sin(45))"),
          ("type", .ofString "string")])]),
      ("required", .array [.ofString ToolArguments.expressionKey]),
      ("type", .ofString "object")])]

/-- The unit that is asked for, or the configured one if none is asked for that can be read. -/
def unitFor (config : Config) : Option String → AngleUnit
  | none => config.angleUnit
  | some text =>
    match AngleUnit.read text with
    | .ok unit => unit
    | .error _ => config.angleUnit

/-- What is said of a failure where the length of an expression is no matter of its validity. -/
def complaint : Failure → String
  | .invalid (.tooLong limit) => (Invalid.tooLong limit).message
  | failure => failure.message

/-- The answer to a call. -/
def call (config : Config) (arguments : ToolArguments) : String :=
  let value := do
    let expression ← accept config arguments.expression
    evaluateText expression (unitFor config arguments.angleUnit)
  match value with
  | .ok x =>
    "Result\n\nExpression: " ++ Text.trim arguments.expression ++ "\nResult: "
      ++ x.format config.precision
  | .error failure => "Calculation error: " ++ complaint failure

/-- What is said of arguments that cannot be read. -/
def invalidArguments : String := "Invalid calculator arguments"

/-- The answer to a call with arguments in JSON, if they can be read. -/
def callJson? (config : Config) (text : String) : Option String :=
  (ToolArguments.ofText? text).map (call config)

end Tool

end Calculator
