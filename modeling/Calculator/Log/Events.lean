import Calculator.Expr.Trace
import Calculator.Log
import Calculator.Text.Bytes
import Calculator.Tool

/-!
# What the calculator logs

The events of loading a configuration, of evaluating an expression and of calling the tool. They are
computed beside the results and have no influence on them. An expression that cannot be parsed is
not logged.
-/

namespace Calculator.Log

/-- The target of the command line. -/
def programTarget : String := "tally"

/-- The target of the tool. -/
def toolTarget : String := "tally::tool"

/-- The target of evaluation. -/
def engineTarget : String := "tally_calc"

/-- The target of calls of functions. -/
def callTarget : String := "tally_calc::evaluator"

/-- The target of line input. -/
def inputTarget : String := "rustyline"

/-- A text in quotes, with escapes for what would not be seen as it is. -/
def quoted (text : String) : String :=
  let escape := fun c : Char =>
    if c = '"' then ['\\', '"']
    else if c = '\\' then ['\\', '\\']
    else if c = '\n' then ['\\', 'n']
    else if c = '\r' then ['\\', 'r']
    else if c = '\t' then ['\\', 't']
    else if c.toNat = 0 then ['\\', '0']
    else if c.toNat < 0x20 ∨ c.toNat = 0x7F then
      '\\' :: 'u' :: '\x7b' :: (Nat.toDigits 16 c.toNat ++ ['\x7d'])
    else [c]
  "\"" ++ String.ofList (text.toList.flatMap escape) ++ "\""

/-- A number as it is logged: with a fractional part, or in scientific notation if it is at least
`10^16` or below `10^-4`. -/
def numberText (x : Binary64) : String :=
  match x with
  | .finite negative rank =>
    let magnitude :=
      if rank.val = 0 then "0.0"
      else
        let decimal := Binary64.shortest rank
        let lead := decimal.exponent + (digitCount decimal.coefficient : Int) - 1
        if 16 ≤ lead ∨ lead < -4 then String.ofList decimal.scientific
        else
          let digits := decimal.positional
          String.ofList (if digits.contains '.' then digits else digits ++ ['.', '0'])
    if negative then "-" ++ magnitude else magnitude
  | other => other.text

/-- The event of a configuration that has been loaded. -/
def configLoaded (file : String) (config : Config) : Event :=
  { level := .debug
    target := programTarget
    message := "configuration loaded"
    fields := [("config_file", file), ("angle_unit", config.angleUnit.name),
      ("precision", toString config.precision)] }

/-- The event of a call of a function. -/
def functionCalled (call : Call) : Event :=
  { level := .trace
    target := callTarget
    message := "call"
    fields := [("function", quoted call.function.name),
      ("args", "[" ++ ", ".intercalate (call.arguments.map numberText) ++ "]"),
      ("result", numberText call.result)] }

/-- The events of evaluating a text. -/
def evaluation (text : String) (unit : AngleUnit) : List Event :=
  match Expr.ofText text with
  | .error _ => []
  | .ok tree =>
    let traced := tree.traced unit
    let common := [("expression", quoted text), ("unit", unit.name)]
    let (message, result) :=
      match traced.result.bind Expr.requireFinite with
      | .ok x => ("evaluated", ("value", numberText x))
      | .error failure => ("evaluation failed", ("error", failure.message))
    traced.calls.map functionCalled
      ++ [{ level := .debug, target := engineTarget, message, fields := common ++ [result] }]

/-- The events of resolving the unit that the caller of the tool asks for. -/
def unitResolved (config : Config) : Option String → List Event
  | none => []
  | some text =>
    match AngleUnit.read text with
    | .ok _ => []
    | .error unknown =>
      [{ level := .warn
         target := toolTarget
         message := unknown.message ++ "; using " ++ config.angleUnit.name }]

/-- The events of a call of the tool. -/
def toolCall (config : Config) (arguments : ToolArguments) : List Event :=
  match accept config arguments.expression with
  | .error _ =>
    let length := Text.byteLength (Text.normalize arguments.expression).toList
    [{ level := .warn
       target := toolTarget
       message := "expression rejected"
       fields := [("length", toString length), ("limit", toString config.maxInputLength)] }]
  | .ok expression =>
    let unit := Tool.unitFor config arguments.angleUnit
    unitResolved config arguments.angleUnit
      ++ [{ level := .debug
            target := toolTarget
            message := "calculator call"
            fields := [("expression", expression), ("unit", unit.name)] }]
      ++ evaluation expression unit

/-- The events of evaluating what a user typed, if it is not too long. -/
def inputEvaluation (config : Config) (text : String) (unit : AngleUnit) : List Event :=
  match accept config text with
  | .error _ => []
  | .ok expression => evaluation expression unit

/-- The event of reading a line from an input that is no terminal. It also knows its place, which
is not shown. -/
def lineRead : Event :=
  { level := .debug
    target := inputTarget
    message := "stdin is not a tty"
    hidden := ["log.target", "log.module_path", "log.file", "log.line"] }

end Calculator.Log
