import Calculator.Config
import Calculator.Json.Reader

/-!
# Configurations and angle units as JSON

A unit is spelled by its name, or as an object that has the name as its only key, with no value. A
configuration is an object of settings, of which unknown ones are ignored and none may come twice,
or an array of the settings in order. Settings that are left out keep their defaults.
-/

namespace Calculator

/-- The unit that a JSON value spells. -/
def AngleUnit.ofJson? : Json → Option AngleUnit
  | .string text => text.bind ofName?
  | .object [(key, .null)] => key.bind ofName?
  | _ => none

/-- A unit as a JSON value. -/
def AngleUnit.toJson (unit : AngleUnit) : Json := .ofString unit.name

namespace Config

/-- A natural number below `2^64` that a JSON value is. -/
def word? (value : Json) : Option Nat := do
  let n ← value.natural?
  if n < 2 ^ 64 then some n else none

/-- The members of an object with the given key; an object with such a member twice, or with a key
without text, is refused. -/
def member? (members : List (Option String × Json)) (key : String) :
    Option (Option Json) :=
  if members.any fun m => m.1.isNone then none
  else match members.filter fun m => m.1 = some key with
    | [] => some none
    | [(_, value)] => some (some value)
    | _ => none

/-- A setting that may be left out. -/
def optional {α : Type} (value : Option Json) (decode : Json → Option α) (default : α) : Option α :=
  match value with
  | none => some default
  | some value => decode value

/-- The configuration with the given settings. -/
def ofSettings? (unit precision maxInputLength logLevel : Option Json) : Option Config := do
  return {
    angleUnit := ← optional unit AngleUnit.ofJson? defaults.angleUnit
    precision := ← optional precision word? defaults.precision
    maxInputLength := ← optional maxInputLength word? defaults.maxInputLength
    logLevel := ← optional logLevel Json.text? defaults.logLevel }

/-- The configuration that a JSON value spells. -/
def ofJson? : Json → Option Config
  | .object members => do
    ofSettings? (← member? members angleUnitKey) (← member? members precisionKey)
      (← member? members maxInputLengthKey) (← member? members logLevelKey)
  | .array items =>
    if items.length ≤ 4 then ofSettings? items[0]? items[1]? items[2]? items[3]? else none
  | _ => none

end Config

end Calculator
