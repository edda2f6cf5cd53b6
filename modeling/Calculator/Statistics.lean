import Calculator.Binary64.Arithmetic

/-!
# Descriptive statistics

Mean, median and sample standard deviation of a list of numbers. Sums are taken from left to right
and start with the negative zero, the neutral element of addition.
-/

namespace Calculator.Statistics

/-- The sum from left to right. -/
def sum (xs : List Binary64) : Binary64 :=
  xs.foldl (· + ·) (-0)

/-- The mean, zero for no numbers. -/
def mean (xs : List Binary64) : Binary64 :=
  if xs.isEmpty then 0 else sum xs / .ofNat xs.length

/-- The numbers in the total order. -/
def sorted (xs : List Binary64) : List Binary64 :=
  xs.mergeSort Binary64.totalLe

/-- The median: the middle one of the sorted numbers, or half the sum of the two in the middle. It
is zero for no numbers. -/
def median (xs : List Binary64) : Binary64 :=
  if xs.isEmpty then 0
  else
    let order := sorted xs
    let middle := xs.length / 2
    if xs.length % 2 = 0 then ((order[middle - 1]?).getD 0 + (order[middle]?).getD 0) / 2
    else (order[middle]?).getD 0

/-- The sample standard deviation, zero for fewer than two numbers. -/
def standardDeviation (xs : List Binary64) : Binary64 :=
  if xs.length < 2 then 0
  else
    let average := mean xs
    let squares := xs.map fun x => (x - average) * (x - average)
    (sum squares / .ofNat (xs.length - 1)).sqrt

end Calculator.Statistics
