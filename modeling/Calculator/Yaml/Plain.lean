import Calculator.Decimal.Reading
import Calculator.Scalar
import Calculator.Text.Hexadecimal

/-!
# Plain scalars of YAML

What serde_yaml takes a scalar without quotes for: nothing, a truth value, an integer to base 2, 8,
10 or 16, another number, or else its own text. Several digits that begin with a zero are a text.
-/

namespace Calculator.Yaml

/-- The number that digits to the given base denote. -/
def digitsToBase? (base : Nat) (digits : List Char) : Option Nat :=
  if digits.isEmpty then none
  else digits.foldlM (fun n c => do
    let d ← Text.hexValue? c
    if d < base then some (n * base + d) else none) 0

/-- Whether a text consists of several digits that begin with a zero, after an optional sign. -/
def isZeroPadded (chars : List Char) : Bool :=
  let digits := match chars with
    | '-' :: digits => digits
    | '+' :: digits => digits
    | digits => digits
  match digits with
  | '0' :: more => !more.isEmpty && more.all Char.isDigit
  | _ => false

/-- The magnitude of an integer with an optional mark for its base. -/
def magnitude? (chars : List Char) : Option Nat :=
  match chars with
  | '0' :: 'x' :: digits => digitsToBase? 16 digits
  | '0' :: 'o' :: digits => digitsToBase? 8 digits
  | '0' :: 'b' :: digits => digitsToBase? 2 digits
  | digits => if isZeroPadded digits then none else digitsToBase? 10 digits

/-- The integer of at most 128 bits that a plain scalar spells. -/
def integer? (chars : List Char) : Option Int :=
  match chars with
  | '-' :: digits => do
    let n ← magnitude? digits
    if n ≤ 2 ^ 127 then some (-(n : Int)) else none
  | '+' :: digits => do
    let n ← magnitude? digits
    if n < 2 ^ 128 then some n else none
  | digits => do
    let n ← magnitude? digits
    if n < 2 ^ 128 then some n else none

/-- Whether a plain scalar spells a number in decimal notation, an infinity or no number. -/
def isReal (chars : List Char) : Bool :=
  let unsigned := match chars with
    | '+' :: rest => rest
    | rest => rest
  let word := String.ofList chars
  if chars != unsigned && (unsigned.head? == some '+' || unsigned.head? == some '-') then false
  else if isZeroPadded chars then false
  else
    String.ofList unsigned ∈ [".inf", ".Inf", ".INF"] || word ∈ ["-.inf", "-.Inf", "-.INF"]
      || word ∈ [".nan", ".NaN", ".NAN"]
      || (Binary64.ofChars? unsigned).any Binary64.isFinite

/-- What a plain scalar stands for. -/
def ofPlain (chars : List Char) : Scalar :=
  let word := String.ofList chars
  if word ∈ ["", "null", "Null", "NULL", "~"] then .null
  else if word ∈ ["true", "True", "TRUE"] then .bool true
  else if word ∈ ["false", "False", "FALSE"] then .bool false
  else match integer? chars with
    | some n => .integer n
    | none => if isReal chars then .real else .text word

end Calculator.Yaml
