import Calculator.Expr
import Calculator.Parsed
import Calculator.Token

/-!
# Parsing expressions

The grammar, from the loosest binding to the tightest:

    sum      := product (('+' | '-') product)*
    product  := signed (('*' | '/') signed)*
    signed   := '-' signed | power
    power    := primary ('^' signed)?
    primary  := number | name | name '(' arguments? ')' | '(' sum ')'
    arguments := sum (',' sum)*

Chains of `+ -` and of `* /` group to the left, and `^` to the right. A minus sign binds looser than
`^`. Every function is given the depth that is used up at its place: a parenthesis, a call, a minus
sign, an exponent and each operator of a chain cost one level, and there are 256 levels. What comes
after a chain does not pay for it.

Each function returns the lexemes that it leaves over, with the fact that they are fewer than those
it was given, on which the recursion rests. The lexemes end where the text ends, so an empty list
stands for the end of the expression.
-/

namespace Calculator.Expr

/-- The number of levels that an expression may use. -/
def maxDepth : Nat := 256

/-- What a function returns that reads lexemes, fewer than `bound` of which are left over. -/
abbrev Reading (α : Type) (bound : Nat) : Type := Except Failure (Parsed Lexeme α bound)

/-- The failure of a lexeme that cannot stand where it does, or of the end. -/
def unexpected : List Lexeme → Failure
  | [] => .unexpectedEnd
  | found :: _ => .unexpectedToken found.token.text found.offset

/-- The next deeper level, if there is one. -/
def descend (depth : Nat) : Except Failure Nat :=
  if depth < maxDepth then .ok (depth + 1) else .error (.invalid .nestedTooDeeply)

/-- The operations of a chain of sums. -/
def sumOperation? : Token → Option Operation
  | .plus => some .add
  | .minus => some .sub
  | _ => none

/-- The operations of a chain of products. -/
def productOperation? : Token → Option Operation
  | .star => some .mul
  | .slash => some .div
  | _ => none

mutual

/-- Reads a chain of sums. -/
def sum (depth : Nat) (input : List Lexeme) : Reading Expr input.length := do
  let first ← product depth input
  have := first.shorter
  let all ← sumChain depth first.value first.rest
  return ⟨all.value, all.rest, by have := all.shorter; omega⟩
termination_by 7 * input.length + 4

/-- Reads the rest of a chain of sums after the expression `left`. -/
def sumChain (depth : Nat) (left : Expr) (input : List Lexeme) :
    Reading Expr (input.length + 1) :=
  match input with
  | [] => .ok ⟨left, [], by simp⟩
  | next :: rest =>
    match sumOperation? next.token with
    | none => .ok ⟨left, next :: rest, by simp⟩
    | some operation => do
      let deeper ← descend depth
      let right ← product deeper rest
      have := right.shorter
      let all ← sumChain deeper (.binary operation left right.value) right.rest
      return ⟨all.value, all.rest, by have := all.shorter; simp only [List.length_cons]; omega⟩
termination_by 7 * input.length

/-- Reads a chain of products. -/
def product (depth : Nat) (input : List Lexeme) : Reading Expr input.length := do
  let first ← signed depth input
  have := first.shorter
  let all ← productChain depth first.value first.rest
  return ⟨all.value, all.rest, by have := all.shorter; omega⟩
termination_by 7 * input.length + 3

/-- Reads the rest of a chain of products after the expression `left`. -/
def productChain (depth : Nat) (left : Expr) (input : List Lexeme) :
    Reading Expr (input.length + 1) :=
  match input with
  | [] => .ok ⟨left, [], by simp⟩
  | next :: rest =>
    match productOperation? next.token with
    | none => .ok ⟨left, next :: rest, by simp⟩
    | some operation => do
      let deeper ← descend depth
      let right ← signed deeper rest
      have := right.shorter
      let all ← productChain deeper (.binary operation left right.value) right.rest
      return ⟨all.value, all.rest, by have := all.shorter; simp only [List.length_cons]; omega⟩
termination_by 7 * input.length

/-- Reads a power after any number of minus signs. -/
def signed (depth : Nat) (input : List Lexeme) : Reading Expr input.length :=
  match input with
  | ⟨.minus, _⟩ :: rest => do
    let deeper ← descend depth
    let operand ← signed deeper rest
    return ⟨.negate operand.value, operand.rest,
      by have := operand.shorter; simp only [List.length_cons]; omega⟩
  | input => power depth input
termination_by 7 * input.length + 2

/-- Reads a primary expression and perhaps an exponent. -/
def power (depth : Nat) (input : List Lexeme) : Reading Expr input.length := do
  let base ← primary depth input
  have := base.shorter
  match h : base.rest with
  | ⟨.caret, _⟩ :: rest => do
    let deeper ← descend depth
    have : rest.length < base.rest.length := by simp [h]
    let exponent ← signed deeper rest
    return ⟨.binary .pow base.value exponent.value, exponent.rest,
      by have := exponent.shorter; omega⟩
  | _ => return base
termination_by 7 * input.length + 1

/-- Reads a number, a name, a call or an expression in parentheses. -/
def primary (depth : Nat) (input : List Lexeme) : Reading Expr input.length :=
  match input with
  | ⟨.number value, _⟩ :: rest => .ok ⟨.literal value, rest, by simp⟩
  | ⟨.name function, _⟩ :: ⟨.leftParen, _⟩ :: rest => do
    let deeper ← descend depth
    let list ← arguments deeper rest
    return ⟨.call function list.value, list.rest,
      by have := list.shorter; simp only [List.length_cons]; omega⟩
  | ⟨.name text, _⟩ :: rest => .ok ⟨.name text, rest, by simp⟩
  | ⟨.leftParen, _⟩ :: rest => do
    let deeper ← descend depth
    let inner ← sum deeper rest
    match h : inner.rest with
    | ⟨.rightParen, _⟩ :: others =>
      return ⟨inner.value, others,
        by have := inner.shorter; simp only [h, List.length_cons] at *; omega⟩
    | others => .error (unexpected others)
  | input => .error (unexpected input)
termination_by 7 * input.length

/-- Reads the arguments of a call and the parenthesis that ends it. -/
def arguments (depth : Nat) (input : List Lexeme) :
    Reading (List Expr) input.length :=
  match input with
  | ⟨.rightParen, _⟩ :: rest => .ok ⟨[], rest, by simp⟩
  | input => argumentList depth input
termination_by 7 * input.length + 6

/-- Reads one argument or more and the parenthesis that ends the call. -/
def argumentList (depth : Nat) (input : List Lexeme) :
    Reading (List Expr) input.length := do
  let first ← sum depth input
  have := first.shorter
  match h : first.rest with
  | ⟨.comma, _⟩ :: rest => do
    have : rest.length < first.rest.length := by simp [h]
    let others ← argumentList depth rest
    return ⟨first.value :: others.value, others.rest,
      by have := others.shorter; omega⟩
  | ⟨.rightParen, _⟩ :: rest =>
    return ⟨[first.value], rest,
      by simp only [h, List.length_cons] at this; omega⟩
  | others => .error (unexpected others)
termination_by 7 * input.length + 5

end

/-- The lexemes before the end of the text. -/
def beforeEnd (lexemes : List Lexeme) : List Lexeme :=
  lexemes.takeWhile fun lexeme => lexeme.token ≠ .endOfInput

/-- The tree of a list of lexemes, all of which up to the end of the text it takes up. -/
def ofLexemes (lexemes : List Lexeme) : Except Failure Expr := do
  let all ← sum 0 (beforeEnd lexemes)
  match all.rest with
  | [] => return all.value
  | others => .error (unexpected others)

/-- The tree of a text. -/
def ofText (text : String) : Except Failure Expr := do
  ofLexemes (← Lexeme.ofText text)

end Calculator.Expr
