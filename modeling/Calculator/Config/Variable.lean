import Calculator.Config.Literal

/-!
# Settings from environment variables

How figment takes settings from the environment. A variable whose name begins with `TALLY_`, in any
case, gives the setting that the rest of its name names. Its value is a literal, or else it is a
text as it stands.
-/

namespace Calculator.Config

/-- What the names of the variables begin with. -/
def variablePrefix : String := "TALLY_"

/-- The value of a variable. -/
def variableValue (value : String) : Scalar :=
  (ofLiteral? value.toList).getD (.text value)

/-- The setting that a variable gives. A point in its name makes the setting a table. -/
def ofVariable? (name value : String) : Option (String × Scalar) :=
  let name := Text.trimChars name.toList
  let marker := variablePrefix.toList
  if (name.take marker.length).map Char.toLower = marker.map Char.toLower then
    let key := Text.asciiLower (String.ofList (Text.trimChars (name.drop marker.length)))
    match key.splitOn "." with
    | [key] => if key = "" then none else some (key, variableValue value)
    | parts => if parts.contains "" then none else some (parts.headD "", .collection)
  else none

/-- The settings that the environment gives. -/
def environmentLayer (environment : List (String × String)) : List (String × Scalar) :=
  environment.filterMap fun (name, value) => ofVariable? name value

end Calculator.Config
