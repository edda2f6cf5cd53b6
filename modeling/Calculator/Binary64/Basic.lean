import Calculator.Natural

/-!
# Floating-point numbers of 64 bits

A `Binary64` is what the binary format of 64 bits distinguishes, with one NaN of each sign. A finite
magnitude is known by its *rank*, its place in the increasing list of all finite magnitudes:
`rank + 1` is the next larger one, and rank 0 is zero. Every magnitude is a whole number of units of
`2^-1074`, so exact results of additions, products and quotients are quotients of natural numbers,
and `nearestRank` is the one place where a value is rounded.
-/

namespace Calculator

/-- How many finite magnitudes there are, zero among them. -/
def Binary64.magnitudes : Nat := 2047 * 2 ^ 52

/-- A floating-point number of 64 bits. -/
inductive Binary64 where
  /-- No number; its sign counts in the total order only. -/
  | nan (negative : Bool)
  /-- Larger than every finite magnitude. -/
  | infinite (negative : Bool)
  /-- A sign and the place of the magnitude among the finite ones. -/
  | finite (negative : Bool) (rank : Fin Binary64.magnitudes)
  deriving DecidableEq

namespace Binary64

/-- Units of `2^-1074` in one. -/
def unitsPerOne : Nat := 2 ^ 1074

/-- The magnitude of a rank, in units of `2^-1074`. -/
def units (rank : Nat) : Nat :=
  if rank < 2 ^ 52 then rank
  else (2 ^ 52 + rank % 2 ^ 52) * 2 ^ (rank / 2 ^ 52 - 1)

/-- The rank of the magnitude nearest to `num / den` units, as if ranks never ended; of two equally
near, the even rank. A step between neighbours of the quotient's size is `2^scale` units. -/
def nearestRank (num den : Nat) : Nat :=
  let scale := (num / den).log2 - 52
  roundHalfEven num (den * 2 ^ scale) + scale * 2 ^ 52

/-- The number with the given sign and rank, infinite past the last finite magnitude. -/
def ofRank (negative : Bool) (rank : Nat) : Binary64 :=
  if bound : rank < magnitudes then .finite negative ⟨rank, bound⟩ else .infinite negative

/-- The number nearest to `num / den` units of `2^-1074`. -/
def ofUnits (negative : Bool) (num den : Nat) : Binary64 :=
  ofRank negative (nearestRank num den)

/-- The number nearest to `num / den`. -/
def ofQuotient (negative : Bool) (num den : Nat) : Binary64 :=
  ofUnits negative (num * unitsPerOne) den

/-- The number nearest to a natural number. -/
def ofNat (n : Nat) : Binary64 :=
  ofQuotient false n 1

/-- Zero with a positive sign. -/
def zero : Binary64 := .finite false ⟨0, by decide⟩

instance : Inhabited Binary64 := ⟨zero⟩

instance (n : Nat) : OfNat Binary64 n := ⟨ofNat n⟩

/-- Whether the sign is negative, also of a zero or a NaN. -/
def isNegative : Binary64 → Bool
  | nan negative | infinite negative | finite negative _ => negative

/-- Whether this is no number. -/
def isNaN : Binary64 → Bool
  | nan _ => true
  | _ => false

/-- Whether this is one of the two infinities. -/
def isInfinite : Binary64 → Bool
  | infinite _ => true
  | _ => false

/-- Whether this is a finite number. -/
def isFinite : Binary64 → Bool
  | finite _ _ => true
  | _ => false

/-- The exact value of a finite number in units of `2^-1074`, and 0 for the others. -/
def signedUnits : Binary64 → Int
  | finite false rank => units rank
  | finite true rank => -units rank
  | _ => 0

end Binary64

end Calculator
