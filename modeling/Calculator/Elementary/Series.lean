import Calculator.Binary64.Arithmetic

/-!
# Series in fixed point

A real number is held as an integer number of units of `2 ^ -places`. Sums of series are taken term
by term with every term cut off at the last place, so a sum is off by at most one unit for each of
its terms. The number of places bounds the number of terms, since every series here gains at least
one binary digit with each term.
-/

namespace Calculator.Elementary

/-- The product of two fixed-point numbers. -/
def times (places : Nat) (x y : Int) : Int := x * y / 2 ^ places

/-- The sum of `count` terms: the first term comes from `state` by `term`, and `next` leads from the
state of the term with index `i` to the state of the following one. -/
def sumSeries (term next : Nat → Int → Int) : Nat → Nat → Int → Int
  | 0, _, _ => 0
  | count + 1, i, state =>
    if state = 0 then 0 else term i state + sumSeries term next count (i + 1) (next i state)

/-- The arc tangent of `1 / n`, for `n` at least two. -/
def arctanInverse (places n : Nat) : Int :=
  sumSeries (fun i power => if i % 2 = 0 then power / (2 * i + 1) else -(power / (2 * i + 1)))
    (fun _ power => power / (n * n)) places 0 (2 ^ places / n)

/-- The circle constant, by the formula of Machin. -/
def pi (places : Nat) : Int :=
  16 * arctanInverse places 5 - 4 * arctanInverse places 239

/-- The natural logarithm of the quotient of `1 + z` and `1 - z`, for `z` at most a third. -/
def logRatio (places : Nat) (z : Int) : Int :=
  let square := times places z z
  2 * sumSeries (fun i power => power / (2 * i + 1)) (fun _ power => times places power square)
    places 0 z

/-- The natural logarithm of two. -/
def logTwo (places : Nat) : Int :=
  logRatio places (2 ^ places / 3)

/-- The exponential function between zero and one. -/
def expSmall (places : Nat) (x : Int) : Int :=
  2 ^ places + sumSeries (fun _ term => term) (fun i term => times places term x / (i + 2))
    places 0 x

/-- The sine of an angle from zero up to two. -/
def sinSmall (places : Nat) (x : Int) : Int :=
  let square := times places x x
  sumSeries (fun _ term => term)
    (fun i term => -(times places term square) / ((2 * i + 2) * (2 * i + 3))) places 0 x

/-- The cosine of an angle from zero up to two. -/
def cosSmall (places : Nat) (x : Int) : Int :=
  let square := times places x x
  sumSeries (fun _ term => term)
    (fun i term => -(times places term square) / ((2 * i + 1) * (2 * i + 2))) places 0 (2 ^ places)

/-- The arc tangent of `x` between zero and one, by the series of Euler: its terms are those of a
geometric series with ratio `x² / (1 + x²)`, each smaller by a further factor. -/
def arctanSmall (places : Nat) (x : Int) : Int :=
  let one : Int := 2 ^ places
  let square := times places x x
  let ratio := square * one / (one + square)
  sumSeries (fun _ term => term)
    (fun i term => times places term ratio * (2 * i + 2) / (2 * i + 3))
    places 0 (x * one / (one + square))

end Calculator.Elementary
