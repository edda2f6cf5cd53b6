import Calculator.Binary64.Arithmetic
import Calculator.Decimal.Reading
import Calculator.Text.Blank

/-!
# Angle units

The circular functions work in radians. In degrees their arguments are multiplied by the radians of
a degree, and the results of their inverses by the degrees of a radian; both factors are rounded
once.
-/

namespace Calculator

/-- The unit that angles are given in. -/
inductive AngleUnit where
  | degrees
  | radians
  deriving DecidableEq, Inhabited, Repr

/-- The circle constant. -/
def circleConstant : Binary64 :=
  .ofDecimal false ⟨314159265358979323846264338327950288, -35⟩

/-- The radians of a degree. -/
def radiansPerDegree : Binary64 := circleConstant / 180

/-- The degrees of a radian. -/
def degreesPerRadian : Binary64 :=
  .ofDecimal false ⟨572957795130823208767981548141051703, -34⟩

namespace AngleUnit

/-- The name of a unit. -/
def name : AngleUnit → String
  | degrees => "degrees"
  | radians => "radians"

instance : ToString AngleUnit := ⟨name⟩

/-- An angle in this unit, in radians. -/
def toRadians (unit : AngleUnit) (x : Binary64) : Binary64 :=
  match unit with
  | degrees => x * radiansPerDegree
  | radians => x

/-- An angle in radians, in this unit. -/
def fromRadians (unit : AngleUnit) (x : Binary64) : Binary64 :=
  match unit with
  | degrees => x * degreesPerRadian
  | radians => x

/-- The unit that is named in full. -/
def ofName? : String → Option AngleUnit
  | "degrees" => some degrees
  | "radians" => some radians
  | _ => none

/-- What a user wrote in place of a unit, trimmed and in lower case. -/
structure Unknown where
  /-- The trimmed text. -/
  text : String
  deriving DecidableEq

/-- The complaint about a text that names no unit. -/
def Unknown.message (u : Unknown) : String :=
  s!"unknown angle unit '{u.text}', expected degrees or radians"

/-- Reads a unit that a user wrote: its name, the singular or the abbreviation, in any case. -/
def read (text : String) : Except Unknown AngleUnit :=
  let word := Text.asciiLower (Text.trim text)
  if word ∈ ["degrees", "degree", "deg"] then .ok degrees
  else if word ∈ ["radians", "radian", "rad"] then .ok radians
  else .error ⟨word⟩

end AngleUnit

end Calculator
