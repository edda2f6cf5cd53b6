import Calculator.Decimal.Reading
import Calculator.Parsed
import Calculator.Scalar
import Calculator.Text.Blank
import Calculator.Text.Bytes
import Calculator.Text.Hexadecimal

/-!
# Literals of settings

How figment reads the values of environment variables. A literal is a truth value, a text between
quotes, a character between single quotes, a list in brackets, a table in braces, or a bare text,
which is a number if it spells one. Lists and tables hold literals, and what they hold makes no
difference here but for its form. A bare text ends before a comma, a bracket or a brace.

A text between quotes with an escape is cut at a byte offset. Where that offset lies inside a
character, the program stops; these values are left out, and here they are no literals.
-/

namespace Calculator.Config

/-- Whether a character is skipped around a literal: white space of ASCII without the vertical
tab. -/
def isPadding (c : Char) : Bool :=
  c == ' ' || c == '\t' || c == '\n' || c == '\x0c' || c == '\r'

/-- A list without the padding at its front. -/
def skipPadding (chars : List Char) : List Char := chars.dropWhile isPadding

theorem length_skipPadding_le (chars : List Char) : (skipPadding chars).length ≤ chars.length :=
  (List.dropWhile_sublist _).length_le

/-- Whether a character ends a bare text. -/
def isSeparator (c : Char) : Bool := c ∈ [',', '\x7b', '\x7d', '[', ']']

/-- Whether a character can be part of a key without quotes. -/
def isKeyChar (c : Char) : Bool := c.isAlphanum || c == '_' || c == '-'

/-- The characters before the quote that ends a text. A backslash keeps a quote from ending it. -/
def beforeQuote? : List Char → Option (List Char)
  | '"' :: _ => some []
  | '\\' :: c :: rest => (beforeQuote? rest).map fun text => '\\' :: c :: text
  | c :: rest => (beforeQuote? rest).map (c :: ·)
  | [] => none

/-- Whether a character between quotes can stand for itself. -/
def isQuotable (c : Char) : Bool := c == '\t' || (0x20 ≤ c.toNat && c.toNat != 0x7F)

/-- The text that characters between quotes stand for, from the first backslash on. -/
def unescape? (chars : List Char) : Option (List Char) :=
  match chars with
  | '\\' :: c :: rest =>
    let named := fun (count : Nat) =>
      if rest.length < count then none
      else do
        let named ← Text.charOfHex? (rest.take count)
        let others ← unescape? (rest.drop count)
        return named :: others
    let simple := fun (image : Char) => (unescape? rest).map (image :: ·)
    match c with
    | 'b' => simple (Char.ofNat 8)
    | 'f' => simple (Char.ofNat 0x0C)
    | 'n' => simple '\n'
    | 'r' => simple '\r'
    | 't' => simple '\t'
    | '"' => simple '"'
    | '\\' => simple '\\'
    | 'u' => named 4
    | 'U' => named 8
    | _ => none
  | c :: rest => if c != '\\' && isQuotable c then (unescape? rest).map (c :: ·) else none
  | [] => some []
termination_by chars.length
decreasing_by all_goals simp only [List.length_cons, List.length_drop]; omega

/-- The text that characters between quotes stand for. Of what stands before the first backslash
only as many bytes are kept as it has characters; if it cannot be cut there, there is no text. -/
def quotedText? (chars : List Char) : Option (List Char) :=
  let before := chars.takeWhile (· != '\\')
  if !before.all isQuotable then none
  else
    match chars.dropWhile (· != '\\') with
    | [] => some chars
    | escaped => do
      let (kept, _) ← Text.cut? before.length before
      return kept ++ (← unescape? escaped)

/-- Reads a text after its first quote. -/
def quotedOf? (input : List Char) : Option (Parsed Char (List Char) (input.length + 1)) := do
  let chars ← beforeQuote? input
  let text ← quotedText? chars
  return ⟨text, input.drop (chars.length + 1), by simp only [List.length_drop]; omega⟩

/-- The integer that a bare text spells. -/
def bareInteger? (chars : List Char) : Option Int :=
  match chars with
  | '-' :: digits =>
    if digits.isEmpty || !digits.all Char.isDigit || 2 ^ 63 < ofNumeral digits then none
    else some (-(ofNumeral digits : Int))
  | chars =>
    let digits := match chars with
      | '+' :: digits => digits
      | digits => digits
    if digits.isEmpty || !digits.all Char.isDigit || 2 ^ 64 ≤ ofNumeral digits then none
    else some (ofNumeral digits)

/-- The value of a bare text. -/
def bareValue (chars : List Char) : Scalar :=
  if chars.contains '.' && (Binary64.ofChars? chars).isSome then .real
  else match bareInteger? chars with
    | some n => .integer n
    | none => .text (String.ofList chars)

/-- Reads a bare text, which may be empty. -/
def bareOf (input : List Char) : Parsed Char Scalar (input.length + 1) :=
  ⟨bareValue (Text.trimChars (input.takeWhile fun c => !isSeparator c)),
    input.dropWhile fun c => !isSeparator c,
    Nat.lt_succ_of_le (List.dropWhile_sublist _).length_le⟩

/-- The same reading without the padding after it. -/
def padded {α : Type} {n : Nat} (r : Parsed Char α n) : Parsed Char α n :=
  ⟨r.value, skipPadding r.rest, Nat.lt_of_le_of_lt (length_skipPadding_le r.rest) r.shorter⟩

/-- Reads a key and the padding around it. -/
def keyOf? (input : List Char) : Option (Parsed Char (List Char) (input.length + 1)) :=
  match h : skipPadding input with
  | '"' :: rest => do
    let text ← quotedOf? rest
    return (padded text).weaken (by
      have := length_skipPadding_le input; simp only [h, List.length_cons] at this; omega)
  | c :: rest =>
    let others := rest.takeWhile isKeyChar
    if isKeyChar c then
      some (padded ⟨c :: others, rest.drop others.length, by
        have := length_skipPadding_le input; simp only [h, List.length_cons] at this
        simp only [List.length_drop]; omega⟩)
    else none
  | [] => none

mutual

/-- Reads a literal and the padding around it. -/
def literalOf? (input : List Char) : Option (Parsed Char Scalar (input.length + 1)) :=
  match h : skipPadding input with
  | 't' :: 'r' :: 'u' :: 'e' :: rest => some (padded ⟨.bool true, rest, by
      have := length_skipPadding_le input; simp only [h, List.length_cons] at this; omega⟩)
  | 'f' :: 'a' :: 'l' :: 's' :: 'e' :: rest => some (padded ⟨.bool false, rest, by
      have := length_skipPadding_le input; simp only [h, List.length_cons] at this; omega⟩)
  | '"' :: rest => do
    let text ← quotedOf? rest
    return (padded (text.map fun chars => .text (String.ofList chars))).weaken (by
      have := length_skipPadding_le input; simp only [h, List.length_cons] at this; omega)
  | '\'' :: c :: '\'' :: rest => some (padded ⟨.text (String.ofList [c]), rest, by
      have := length_skipPadding_le input; simp only [h, List.length_cons] at this; omega⟩)
  | '\'' :: _ => none
  | '[' :: rest => do
    have : rest.length + 1 ≤ input.length := by
      have := length_skipPadding_le input; simp only [h, List.length_cons] at this; omega
    let items ← itemsOf? rest
    return (padded (items.map fun _ => .collection)).weaken (by omega)
  | '\x7b' :: rest => do
    have : rest.length + 1 ≤ input.length := by
      have := length_skipPadding_le input; simp only [h, List.length_cons] at this; omega
    let members ← membersOf? rest
    return (padded (members.map fun _ => .collection)).weaken (by omega)
  | rest => some ((bareOf rest).weaken (by
      have := length_skipPadding_le input; simp only [h] at this; omega))
termination_by 3 * input.length

/-- Reads the items of a list after its bracket or after a comma, up to the bracket that ends it.
The bracket can follow a comma. -/
def itemsOf? (input : List Char) : Option (Parsed Char Unit input.length) :=
  match input with
  | ']' :: rest => some ⟨(), rest, Nat.lt_succ_self _⟩
  | input => do
    let item ← literalOf? input
    have := item.shorter
    match h : item.rest with
    | ']' :: rest => return ⟨(), rest, by simp only [h, List.length_cons] at this; omega⟩
    | ',' :: rest => do
      have : rest.length + 1 ≤ input.length := by simp only [h, List.length_cons] at this; omega
      return (← itemsOf? rest).weaken (by omega)
    | _ => none
termination_by 3 * input.length + 1

/-- Reads the members of a table, each a key, an equals sign and a literal, after its brace or after
a comma, up to the brace that ends it. The brace can follow a comma. -/
def membersOf? (input : List Char) : Option (Parsed Char Unit input.length) :=
  match input with
  | '\x7d' :: rest => some ⟨(), rest, Nat.lt_succ_self _⟩
  | input => do
    let key ← keyOf? input
    have := key.shorter
    match hkey : key.rest with
    | '=' :: rest => do
      have : rest.length + 1 ≤ input.length := by simp only [hkey, List.length_cons] at this; omega
      let value ← literalOf? rest
      have := value.shorter
      match h : value.rest with
      | '\x7d' :: rest => return ⟨(), rest, by simp only [h, List.length_cons] at this; omega⟩
      | ',' :: rest => do
        have : rest.length + 1 ≤ input.length := by simp only [h, List.length_cons] at this; omega
        return (← membersOf? rest).weaken (by omega)
      | _ => none
    | _ => none
termination_by 3 * input.length + 1

end

/-- The value of a text that is a literal as a whole. -/
def ofLiteral? (text : List Char) : Option Scalar := do
  let literal ← literalOf? text
  if literal.rest.isEmpty then return literal.value else none

end Calculator.Config
