import Calculator.Binary64.Integral
import Calculator.Elementary.Exponential

/-!
# Powers of floating-point numbers

A power is the nearest floating-point number to the real power. Powers that can be exact or lie
halfway between two numbers are those with a rational value of few digits: after square roots have
been taken out of the base as long as the exponent is no integer, the exponent is a small integer
or the base a power of two. These are computed exactly; all others through the logarithm.
-/

namespace Calculator.Elementary

/-- The number `odd * 2 ^ exponent`. -/
structure OddPart where
  /-- The odd factor, or zero. -/
  odd : Nat
  /-- The power of two. -/
  exponent : Int

/-- Halves an even number of units as often as possible; `fuel` bounds how often. -/
def OddPart.ofUnits : Nat → Nat → Int → OddPart
  | 0, n, exponent => ⟨n, exponent⟩
  | fuel + 1, n, exponent =>
    if n % 2 = 0 then ofUnits fuel (n / 2) (exponent + 1) else ⟨n, exponent⟩

/-- The odd factor and the power of two of a magnitude that is not zero. -/
def OddPart.ofRank (rank : Nat) : OddPart :=
  let units := Binary64.units rank
  OddPart.ofUnits (units.log2 + 1) units (-1074)

/-- The square root, if it is of the same kind. -/
def OddPart.sqrt? (x : OddPart) : Option OddPart :=
  let root := squareRoot x.odd
  if root * root = x.odd ∧ x.exponent % 2 = 0 then some ⟨root, x.exponent / 2⟩ else none

/-- Takes square roots of the base while the exponent `n / 2 ^ halvings` is no integer. -/
def OddPart.root? (x : OddPart) : Nat → Option OddPart
  | 0 => some x
  | halvings + 1 => do (← x.sqrt?).root? halvings

/-- The exact power with the integer exponent `n` of the given sign, rounded once. -/
def OddPart.power (x : OddPart) (negative : Bool) (n : Nat) : Binary64 :=
  let exponent := x.exponent * withSign negative n
  let factor := x.odd ^ n
  if exponent < 0 then
    if negative then .ofQuotient false 1 (factor * 2 ^ exponent.natAbs)
    else .ofQuotient false factor (2 ^ exponent.natAbs)
  else
    if negative then .ofQuotient false (2 ^ exponent.natAbs) factor
    else .ofQuotient false (factor * 2 ^ exponent.natAbs) 1

/-- A power of two, with any exponent. -/
def powerOfTwo (exponent : Int) : Binary64 :=
  if exponent < -1100 then 0
  else if 1100 < exponent then .infinite false
  else OddPart.power ⟨1, exponent⟩ false 1

/-- The power of a positive base where it is rational and needs few digits: the base is a power of
two, or the exponent an integer of at most 64. -/
def exactPower? (base : OddPart) (negative : Bool) (exponent : OddPart) : Option Binary64 := do
  let base ← base.root? (-exponent.exponent).toNat
  if base.odd = 1 then
    let n := exponent.odd * 2 ^ exponent.exponent.toNat
    return powerOfTwo (base.exponent * withSign negative n)
  else if exponent.exponent ≤ 6 then
    let n := exponent.odd * 2 ^ exponent.exponent.toNat
    if n ≤ 64 then return base.power negative n else none
  else none

/-- The power of a positive base other than one, with an exponent other than zero. -/
def positivePower (base : Nat) (negative : Bool) (exponent : Nat) : Binary64 :=
  match exactPower? (OddPart.ofRank base) negative (OddPart.ofRank exponent) with
  | some power => power
  | none =>
    let extra := (Binary64.units exponent / Binary64.unitsPerOne).log2 + 2
    expSettled fun places =>
      let product := logFixed (places + extra) base * fixedPoint (places + extra) exponent
      withSign negative (product / 2 ^ (places + 2 * extra))

end Calculator.Elementary

namespace Calculator.Binary64

open Elementary

/-- Whether this is an odd integer. -/
def isOddInteger : Binary64 → Bool
  | finite _ rank => units rank / unitsPerOne % 2 = 1 && units rank % unitsPerOne = 0
  | _ => false

/-- The power `x ^ y`. A zero exponent and the base one give one whatever the other operand is. A
negative base has real powers for integer exponents only, negative ones for the odd exponents. -/
def pow (x y : Binary64) : Binary64 :=
  if y.same 0 || x.same 1 then 1
  else
    match x, y with
    | nan negative, _ | _, nan negative => nan negative
    | infinite negative, y =>
      let sign := negative && y.isOddInteger
      if y.isNegative then ofRank sign 0 else infinite sign
    | finite negative base, infinite below =>
      let x := finite negative base
      if x.abs.same 1 then 1
      else if x.abs.lt 1 == below then infinite false
      else 0
    | finite negative base, finite below exponent =>
      let y := finite below exponent
      let sign := negative && y.isOddInteger
      if base.val = 0 then (if below then infinite sign else ofRank sign 0)
      else if negative && !y.isIntegral then nan false
      else if (finite negative base).abs.same 1 then (if sign then -1 else 1)
      else
        let power := positivePower base below exponent
        if sign then -power else power

end Calculator.Binary64
