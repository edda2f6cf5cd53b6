import Calculator.Decimal.Reading
import Calculator.Failure

/-!
# Tokens

An expression is cut into numbers, names, operators, parentheses and commas; ASCII white space
between them is skipped. Each token comes with the byte offset at which it begins, and a last token
marks the end of the text. A number is a longest run of digits and points, a name a longest run of
letters, digits and underscores that does not begin with a digit.
-/

namespace Calculator

/-- A token of an expression. -/
inductive Token where
  /-- A number without a sign. -/
  | number (value : Binary64)
  /-- The name of a function or of a constant. -/
  | name (text : String)
  | plus
  | minus
  | star
  | slash
  | caret
  | leftParen
  | rightParen
  | comma
  /-- The end of the text. -/
  | endOfInput
  deriving DecidableEq

/-- A token and the byte offset at which it begins. -/
structure Lexeme where
  /-- The token. -/
  token : Token
  /-- Its byte offset in the text. -/
  offset : Nat
  deriving DecidableEq

namespace Token

/-- A token as it is shown in messages. -/
def text : Token → String
  | number value => value.text
  | name text => text
  | plus => "+"
  | minus => "-"
  | star => "*"
  | slash => "/"
  | caret => "^"
  | leftParen => "("
  | rightParen => ")"
  | comma => ","
  | endOfInput => "end of input"

/-- The token of a character that is one by itself. -/
def ofSymbol? : Char → Option Token
  | '+' => some plus
  | '-' => some minus
  | '*' => some star
  | '/' => some slash
  | '^' => some caret
  | '(' => some leftParen
  | ')' => some rightParen
  | ',' => some comma
  | _ => none

/-- Whether a character is white space between tokens. -/
def isGap (c : Char) : Bool :=
  c == ' ' || c == '\t' || c == '\n' || c == '\x0c' || c == '\r'

/-- Whether a character can begin a name. -/
def isNameStart (c : Char) : Bool := c.isAlpha || c == '_'

/-- Whether a character can stand in a name. -/
def isNameChar (c : Char) : Bool := c.isAlphanum || c == '_'

end Token

namespace Lexeme

/-- The lexemes of a text that begins at the given byte offset. -/
def scan (offset : Nat) : List Char → Except Failure (List Lexeme)
  | [] => .ok [⟨.endOfInput, offset⟩]
  | c :: rest =>
    if Token.isGap c then scan (offset + 1) rest
    else match Token.ofSymbol? c with
    | some token => do
      let others ← scan (offset + 1) rest
      return ⟨token, offset⟩ :: others
    | none =>
      if isNumeralChar c then
        let run := c :: rest.takeWhile isNumeralChar
        match Binary64.ofPlain? run with
        | none => .error (.invalid (.malformedNumber (String.ofList run)))
        | some value => do
          let others ← scan (offset + run.length) (rest.dropWhile isNumeralChar)
          return ⟨.number value, offset⟩ :: others
      else if Token.isNameStart c then
        let run := c :: rest.takeWhile Token.isNameChar
        do
          let others ← scan (offset + run.length) (rest.dropWhile Token.isNameChar)
          return ⟨.name (String.ofList run), offset⟩ :: others
      else .error (.invalid (.unrecognizedCharacter c offset))
termination_by chars => chars.length
decreasing_by
  all_goals simp only [List.length_cons]
  all_goals first
    | exact Nat.lt_succ_self _
    | exact Nat.lt_succ_of_le (List.dropWhile_sublist _).length_le

/-- The lexemes of a text. -/
def ofText (text : String) : Except Failure (List Lexeme) :=
  scan 0 text.toList

end Lexeme

end Calculator
