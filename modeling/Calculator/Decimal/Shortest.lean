import Calculator.Binary64.Basic
import Calculator.Decimal.Basic

/-!
# The shortest decimal text of a number

The text of a number has the fewest significant digits that read back to it, and of those the
digits nearest to it. Two decimals of that length can be equally near; then the larger magnitude is
written. For each length only the two neighbours of the number on the grid of that length can be
nearest, so no others are tried.
-/

namespace Calculator.Binary64

/-- Whether the magnitude of this rank is the one nearest to `coefficient * 10 ^ exponent`. -/
def readsBack (rank : Nat) (d : Decimal) : Bool :=
  let (num, den) := Decimal.inSteps (d.coefficient * unitsPerOne) 1 (-d.exponent)
  nearestRank num den = rank

/-- Of the two neighbours of `num / den` among the integers, counted in steps of `10 ^ exponent`, the
nearer one that is accepted. The larger is taken if both are equally near. -/
def nearerNeighbor? (accepts : Decimal → Bool) (num den : Nat) (exponent : Int) : Option Decimal :=
  let below : Decimal := ⟨num / den, exponent⟩
  let above : Decimal := ⟨num / den + 1, exponent⟩
  match accepts below, accepts above with
  | true, true => some (if 2 * (num % den) < den then below else above)
  | true, false => some below
  | false, true => some above
  | false, false => none

/-- The decimal nearest to a magnitude among the multiples of `10 ^ exponent` that read back to it,
if there are any. -/
def nearestOnGrid? (rank : Nat) (exponent : Int) : Option Decimal :=
  let (num, den) := Decimal.inSteps (units rank) unitsPerOne exponent
  nearerNeighbor? (readsBack rank) num den exponent

/-- The shortest decimal of a magnitude. Seventeen digits are always enough. -/
def shortest (rank : Nat) : Decimal :=
  let lead := Decimal.leadingExponent (units rank) unitsPerOne
  ((List.range 17).findSome? fun places : Nat => nearestOnGrid? rank (lead - places)).getD ⟨0, 0⟩

/-- The digits of a finite number of the given rank, all in their places. -/
def magnitudeText (rank : Nat) : List Char :=
  if rank = 0 then ['0'] else (shortest rank).positional

/-- The shortest text of a number, never with an exponent. -/
def chars : Binary64 → List Char
  | nan _ => ['N', 'a', 'N']
  | infinite false => ['i', 'n', 'f']
  | infinite true => ['-', 'i', 'n', 'f']
  | finite false rank => magnitudeText rank
  | finite true rank => '-' :: magnitudeText rank

/-- The shortest text of a number, never with an exponent. -/
def text (x : Binary64) : String := String.ofList x.chars

instance : ToString Binary64 := ⟨text⟩

end Calculator.Binary64
