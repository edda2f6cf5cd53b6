import Calculator.Elementary.Exponential

/-!
# Circular functions and their inverses

Correctly rounded values of sine, cosine and tangent of an angle in radians, and of their inverses.
An angle is first reduced to a quarter of the circle. The circle constant is taken to as many places
as the size of the angle calls for, so that no digit of the reduced angle is lost. A value of zero
comes only from a zero, or from the arc cosine of one, and is taken out before.
-/

namespace Calculator.Elementary

/-- An angle as quarter turns and a rest from zero up to a quarter turn. -/
structure Reduced where
  /-- The whole quarter turns. -/
  quarters : Int
  /-- The rest, as a fixed-point number. -/
  rest : Int

/-- Takes the whole quarter turns out of the magnitude of the given rank. -/
def reduceAngle (places : Nat) (rank : Nat) : Reduced :=
  let guard := (Binary64.units rank / Binary64.unitsPerOne).log2 + 1
  let quarter := pi (places + guard) / 2
  let angle := fixedPoint (places + guard) rank
  ⟨angle / quarter, angle % quarter / 2 ^ guard⟩

/-- The sine of a reduced angle. -/
def Reduced.sin (places : Nat) (angle : Reduced) : Int :=
  match angle.quarters % 4 with
  | 0 => sinSmall places angle.rest
  | 1 => cosSmall places angle.rest
  | 2 => -sinSmall places angle.rest
  | _ => -cosSmall places angle.rest

/-- The cosine of a reduced angle. -/
def Reduced.cos (places : Nat) (angle : Reduced) : Int :=
  Reduced.sin places ⟨angle.quarters + 1, angle.rest⟩

/-- The enclosure of a quotient of two estimates, if its denominator is surely not zero. Both bounds
are taken from the side that is farther from the estimate. -/
def quotientEnclosure (places : Nat) (num den : Int) : Enclosure :=
  let (num, den) := if den < 0 then (-num, -den) else (num, den)
  if den ≤ slack then ⟨-(2 ^ places), 2 ^ places, places⟩
  else
    let low := num - slack
    let high := num + slack
    let one : Int := 2 ^ places
    ⟨low * one / (if low < 0 then den - slack else den + slack),
     high * one / (if high < 0 then den + slack else den - slack) + 1, places⟩

/-- The angle of the right triangle whose legs, opposite and adjacent to it, are given; one of them
is not zero. -/
def triangleAngle (places : Nat) (opposite adjacent : Int) : Int :=
  let one : Int := 2 ^ places
  if opposite ≤ adjacent then arctanSmall places (opposite * one / adjacent)
  else pi places / 2 - arctanSmall places (adjacent * one / opposite)

/-- The other leg of the right triangle with hypotenuse one. -/
def otherLeg (places : Nat) (x : Int) : Int :=
  squareRoot (2 ^ (2 * places) - x * x).toNat

end Calculator.Elementary

namespace Calculator.Binary64

open Elementary

/-- The value that the estimates close in on, with the given sign. -/
def settleSigned (negative : Bool) (estimate : Nat → Int) : Binary64 :=
  settle fun places => .around (withSign negative (estimate places)) places

/-- The sine of an angle in radians. -/
def sin : Binary64 → Binary64
  | finite negative rank =>
    if rank.val = 0 then finite negative rank
    else settleSigned negative fun places => (reduceAngle places rank).sin places
  | _ => nan false

/-- The cosine of an angle in radians. -/
def cos : Binary64 → Binary64
  | finite _ rank => settleSigned false fun places => (reduceAngle places rank).cos places
  | _ => nan false

/-- The tangent of an angle in radians. -/
def tan : Binary64 → Binary64
  | finite negative rank =>
    if rank.val = 0 then finite negative rank
    else settle fun places =>
      let angle := reduceAngle places rank
      quotientEnclosure places (withSign negative (angle.sin places)) (angle.cos places)
  | _ => nan false

/-- The angle from -π/2 to π/2 with the given sine; a NaN outside [-1, 1]. -/
def asin : Binary64 → Binary64
  | finite negative rank =>
    if rank.val = 0 then finite negative rank
    else if unitsPerOne < units rank then nan false
    else settleSigned negative fun places =>
      let x := fixedPoint places rank
      triangleAngle places x (otherLeg places x)
  | _ => nan false

/-- The angle from 0 to π with the given cosine; a NaN outside [-1, 1]. -/
def acos : Binary64 → Binary64
  | finite negative rank =>
    if unitsPerOne < units rank then nan false
    else if finite negative rank = 1 then 0
    else settle fun places =>
      let x := fixedPoint places rank
      let angle := triangleAngle places (otherLeg places x) x
      .around (if negative then pi places - angle else angle) places
  | _ => nan false

/-- The angle from -π/2 to π/2 with the given tangent. -/
def atan : Binary64 → Binary64
  | nan negative => nan negative
  | infinite negative => settleSigned negative fun places => pi places / 2
  | finite negative rank =>
    if rank.val = 0 then finite negative rank
    else settleSigned negative fun places =>
      triangleAngle places (fixedPoint places rank) (2 ^ places)

end Calculator.Binary64
