import Calculator.Angle
import Calculator.Decimal.Significant
import Calculator.Yaml.Printer

/-!
# Configuration

The settings of the calculator: the angle unit, the significant digits of results, the longest
expression that is accepted, in bytes, and which events are logged. They are written as a flat
mapping, and are valid within bounds that are checked once they are known.
-/

namespace Calculator

/-- The settings of the calculator. -/
structure Config where
  /-- The unit of angles where no other is asked for. -/
  angleUnit : AngleUnit := .degrees
  /-- The significant digits of results. -/
  precision : Nat := Binary64.defaultPrecision
  /-- The bytes that an expression may have. -/
  maxInputLength : Nat := 1024
  /-- Which events are logged. -/
  logLevel : String := "info"
  deriving DecidableEq

/-- Why there is no configuration to work with. -/
inductive ConfigFailure where
  /-- The named file does not exist. -/
  | fileNotFound (path : String)
  /-- A file or a setting cannot be read. -/
  | unreadable
  /-- The precision is out of bounds. -/
  | precisionOutOfRange (precision : Nat)
  /-- No expression would be short enough. -/
  | noInputAllowed
  deriving DecidableEq

/-- Why there is no configuration, in words. -/
def ConfigFailure.message : ConfigFailure → String
  | fileNotFound path => s!"Configuration file not found: {path}"
  | unreadable => "Failed to load configuration"
  | precisionOutOfRange precision =>
    s!"Invalid configuration: precision: {precision} not in [1, 17]"
  | noInputAllowed => "Invalid configuration: max_input_length: must be greater than 0"

namespace Config

/-- The name of the angle unit. -/
def angleUnitKey : String := "angle_unit"

/-- The name of the precision. -/
def precisionKey : String := "precision"

/-- The name of the bound on the length of expressions. -/
def maxInputLengthKey : String := "max_input_length"

/-- The name of the setting for the log. -/
def logLevelKey : String := "log_level"

/-- The settings where nothing else is asked for. -/
def defaults : Config := {}

/-- Checks the bounds of the settings, the precision first. -/
def validate (config : Config) : Except ConfigFailure Unit :=
  if config.precision < 1 ∨ 17 < config.precision then
    .error (.precisionOutOfRange config.precision)
  else if config.maxInputLength = 0 then .error .noInputAllowed
  else .ok ()

/-- The settings as a mapping, a line each. -/
def yamlChars (config : Config) : List Char :=
  Yaml.entryLine angleUnitKey config.angleUnit.name.toList
    ++ Yaml.entryLine precisionKey (numeral config.precision)
    ++ Yaml.entryLine maxInputLengthKey (numeral config.maxInputLength)
    ++ Yaml.entryLine logLevelKey (Yaml.scalarChars config.logLevel.toList)

/-- The settings as a mapping, a line each. -/
def yaml (config : Config) : String := String.ofList config.yamlChars

end Config

end Calculator
