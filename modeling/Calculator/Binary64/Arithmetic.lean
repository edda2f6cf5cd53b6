import Calculator.Binary64.Basic

/-!
# Arithmetic of 64-bit floating-point numbers

Each operation on finite numbers takes the exact result, a quotient of natural numbers with a sign,
and rounds it once. Operations without a numeric result give a NaN, and a zero result keeps the sign
that the signs of the operands call for.
-/

namespace Calculator.Binary64

/-- The same magnitude with the other sign. -/
def neg : Binary64 → Binary64
  | nan negative => nan !negative
  | infinite negative => infinite !negative
  | finite negative rank => finite (!negative) rank

/-- The same magnitude with a positive sign. -/
def abs : Binary64 → Binary64
  | nan _ => nan false
  | infinite _ => infinite false
  | finite _ rank => finite false rank

/-- The sum. A sum of exactly zero is negative only if both operands are. -/
def add : Binary64 → Binary64 → Binary64
  | nan negative, _ | _, nan negative => nan negative
  | infinite a, infinite b => if a = b then infinite a else nan false
  | infinite a, finite _ _ => infinite a
  | finite _ _, infinite b => infinite b
  | finite a x, finite b y =>
    let sum := (finite a x).signedUnits + (finite b y).signedUnits
    if sum = 0 then ofUnits (a && b) 0 1 else ofUnits (sum < 0) sum.natAbs 1

/-- The difference. -/
def sub (x y : Binary64) : Binary64 :=
  add x (neg y)

/-- The product. -/
def mul : Binary64 → Binary64 → Binary64
  | nan negative, _ | _, nan negative => nan negative
  | infinite a, infinite b => infinite (a != b)
  | infinite a, finite b y | finite b y, infinite a =>
    if y.val = 0 then nan false else infinite (a != b)
  | finite a x, finite b y => ofUnits (a != b) (units x * units y) unitsPerOne

/-- The quotient. A number other than zero over a zero is infinite. -/
def div : Binary64 → Binary64 → Binary64
  | nan negative, _ | _, nan negative => nan negative
  | infinite _, infinite _ => nan false
  | infinite a, finite b _ => infinite (a != b)
  | finite a _, infinite b => ofUnits (a != b) 0 1
  | finite a x, finite b y =>
    if y.val = 0 then (if x.val = 0 then nan false else infinite (a != b))
    else ofUnits (a != b) (units x * unitsPerOne) (units y)

/-- The square root; a NaN for a number below zero, and a zero keeps its sign. The root in units is
the root of `units * 2^1074`, of which the integer part and whether anything follows it decide how
the root is rounded. -/
def sqrt : Binary64 → Binary64
  | nan negative => nan negative
  | infinite negative => if negative then nan false else infinite false
  | finite negative rank =>
    if rank.val = 0 then finite negative rank
    else if negative then nan false
    else
      let square := units rank * unitsPerOne
      let root := squareRoot square
      ofUnits false (2 * root + if root * root = square then 0 else 1) 2

instance : Neg Binary64 := ⟨neg⟩
instance : Add Binary64 := ⟨add⟩
instance : Sub Binary64 := ⟨sub⟩
instance : Mul Binary64 := ⟨mul⟩
instance : Div Binary64 := ⟨div⟩

/-- Where a number stands on the line: its rank with its sign, both zeros at 0, and the infinities
past every finite number. A NaN has no place. -/
def place? : Binary64 → Option Int
  | nan _ => none
  | infinite false => some magnitudes
  | infinite true => some (-magnitudes)
  | finite false rank => some rank
  | finite true rank => some (-(rank : Nat))

/-- Whether the first number is below the second; false if one of them is a NaN. -/
def lt (x y : Binary64) : Bool :=
  match x.place?, y.place? with
  | some i, some j => i < j
  | _, _ => false

/-- Whether the first number is at most the second; false if one of them is a NaN. -/
def le (x y : Binary64) : Bool :=
  match x.place?, y.place? with
  | some i, some j => i ≤ j
  | _, _ => false

/-- Whether both are the same number: the zeros are, and a NaN is not even the same as itself. -/
def same (x y : Binary64) : Bool :=
  match x.place?, y.place? with
  | some i, some j => i = j
  | _, _ => false

/-- The place in the total order: negative NaN, negative infinity, the negative numbers up to the
negative zero, and then the positive ones in the reverse order. -/
def totalPlace : Binary64 → Int
  | nan negative => signed negative (magnitudes + 1)
  | infinite negative => signed negative magnitudes
  | finite negative rank => signed negative rank
where
  signed (negative : Bool) (rank : Nat) : Int :=
    if negative then -rank - 1 else rank

/-- The total order on all floating-point numbers. -/
def totalLe (x y : Binary64) : Bool :=
  x.totalPlace ≤ y.totalPlace

end Calculator.Binary64
