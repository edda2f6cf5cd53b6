import Calculator.Binary64.Arithmetic

/-!
# Rounding a real number that is known up to an error

The value of a transcendental function is never known exactly, but it can be enclosed as narrowly as
one likes. Once both ends of an enclosure round to the same floating-point number, so does the value
between them; until then the work is done again with twice as many binary places. Values that lie
halfway between two neighbours would never be decided this way. The functions that use this module
have none apart from those that their own modules take out beforehand.
-/

namespace Calculator.Elementary

/-- Two bounds of a real number, in units of `2 ^ -places`. -/
structure Enclosure where
  /-- At most the value. -/
  lower : Int
  /-- At least the value. -/
  upper : Int
  /-- The binary places of both bounds. -/
  places : Int

/-- The floating-point number nearest to `n / 2 ^ places`. -/
def roundScaled (n places : Int) : Binary64 :=
  if 0 ≤ places then .ofQuotient (n < 0) n.natAbs (2 ^ places.toNat)
  else .ofQuotient (n < 0) (n.natAbs * 2 ^ places.natAbs) 1

/-- How far an estimate may be off, in units of its last place. Every estimate of this library is
off by much less: a series adds one unit for each of its terms, and the largest factor that an error
is multiplied with is below `2 ^ 12`. -/
def slack : Int := 2 ^ 32

/-- The enclosure around an estimate. -/
def Enclosure.around (estimate places : Int) : Enclosure :=
  ⟨estimate - slack, estimate + slack, places⟩

/-- The floating-point number that every value of the enclosure rounds to, if there is one. -/
def Enclosure.decide? (e : Enclosure) : Option Binary64 :=
  let low := roundScaled e.lower e.places
  if low = roundScaled e.upper e.places then some low else none

/-- The numbers of binary places that are tried in turn. -/
def workingPlaces : List Nat := [128, 256, 512, 1024, 2048, 4096, 8192]

/-- The floating-point number nearest to the value that the enclosures close in on. -/
def settle (enclosure : Nat → Enclosure) : Binary64 :=
  (workingPlaces.findSome? fun places => (enclosure places).decide?).getD (.nan false)

end Calculator.Elementary
