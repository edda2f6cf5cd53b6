import Calculator.Json
import Calculator.Parsed

/-!
# Reading JSON

How serde_json reads values. The reader accepts the texts of the JSON grammar and no others. A
string may hold any characters but control characters; its escapes are read as code units of 16
bits, of which two surrogates in a row make up one character.
-/

namespace Calculator.Json

/-- A list without the white space at its front. -/
def skipBlanks (chars : List Char) : List Char :=
  chars.dropWhile fun c => c == ' ' || c == '\t' || c == '\n' || c == '\r'

theorem length_skipBlanks_le (chars : List Char) : (skipBlanks chars).length ≤ chars.length :=
  (List.dropWhile_sublist _).length_le

/-- The code unit that four digits to base 16 name. -/
def codeUnit? (a b c d : Char) : Option Nat := do
  let high := (← Text.hexValue? a) * 16 + (← Text.hexValue? b)
  let low := (← Text.hexValue? c) * 16 + (← Text.hexValue? d)
  return high * 256 + low

/-- The character that stands after a backslash for another one. -/
def simpleEscape? : Char → Option Char
  | '"' => some '"'
  | '\\' => some '\\'
  | '/' => some '/'
  | 'b' => some '\x08'
  | 'f' => some '\x0c'
  | 'n' => some '\n'
  | 'r' => some '\r'
  | 't' => some '\t'
  | _ => none

/-- Reads a string after its first quote, as the code points of its characters and the code units of
its escapes. -/
def unitsOf? (input : List Char) : Option (Parsed Char (List Nat) input.length) :=
  match input with
  | [] => none
  | '"' :: rest => some ⟨[], rest, Nat.lt_succ_self _⟩
  | '\\' :: 'u' :: a :: b :: c :: d :: rest => do
    let unit ← codeUnit? a b c d
    let others ← unitsOf? rest
    return (others.map (unit :: ·)).weaken (Nat.le_add_right _ 6)
  | '\\' :: c :: rest => do
    let escaped ← simpleEscape? c
    let others ← unitsOf? rest
    return (others.map (escaped.toNat :: ·)).weaken (Nat.le_add_right _ 2)
  | c :: rest =>
    if c == '\\' || c.toNat < 0x20 then none
    else do
      let others ← unitsOf? rest
      return (others.map (c.toNat :: ·)).weaken (Nat.le_succ _)
termination_by input.length
decreasing_by all_goals simp only [List.length_cons]; omega

/-- Whether a code unit is the first of a surrogate pair. -/
def isHighSurrogate (n : Nat) : Bool := 0xD800 ≤ n && n < 0xDC00

/-- Whether a code unit is the second of a surrogate pair. -/
def isLowSurrogate (n : Nat) : Bool := 0xDC00 ≤ n && n < 0xE000

/-- The text of code points and code units, in which surrogates come only in pairs. -/
def charsOfUnits? : List Nat → Option (List Char)
  | [] => some []
  | [n] => if isHighSurrogate n || isLowSurrogate n then none else some [Char.ofNat n]
  | n :: m :: rest =>
    if isHighSurrogate n then
      if isLowSurrogate m then
        (charsOfUnits? rest).map (Char.ofNat (0x10000 + (n - 0xD800) * 0x400 + (m - 0xDC00)) :: ·)
      else none
    else if isLowSurrogate n then none
    else (charsOfUnits? (m :: rest)).map (Char.ofNat n :: ·)

/-- Reads a string after its first quote. -/
def stringOf? (input : List Char) : Option (Parsed Char (Option String) input.length) :=
  (unitsOf? input).map fun r => r.map fun units => (charsOfUnits? units).map String.ofList

/-- Splits a list into its leading digits and what follows. -/
def spanDigits (chars : List Char) : List Char × List Char :=
  (chars.takeWhile Char.isDigit, chars.dropWhile Char.isDigit)

/-- Splits the fractional part of a number off, if there is one. -/
def spanFraction? : List Char → Option (List Char × List Char)
  | '.' :: rest =>
    let (digits, rest) := spanDigits rest
    if digits.isEmpty then none else some ('.' :: digits, rest)
  | rest => some ([], rest)

/-- Splits the exponent of a number off, if there is one. -/
def spanExponent? : List Char → Option (List Char × List Char)
  | mark :: rest =>
    if mark == 'e' || mark == 'E' then
      let (sign, rest) := match rest with
        | '+' :: rest => (['+'], rest)
        | '-' :: rest => (['-'], rest)
        | rest => ([], rest)
      let (digits, rest) := spanDigits rest
      if digits.isEmpty then none else some (mark :: (sign ++ digits), rest)
    else some ([], mark :: rest)
  | [] => some ([], [])

/-- The spelling of the number at the front of a list, whose integral part does not begin with a
zero unless it is one. -/
def numberSpelling? (input : List Char) : Option (List Char) := do
  let (sign, rest) := match input with
    | '-' :: rest => (['-'], rest)
    | rest => ([], rest)
  let (whole, rest) := spanDigits rest
  if whole.isEmpty || (whole.length > 1 && whole.head? == some '0') then none
  else
    let (fraction, rest) ← spanFraction? rest
    let (exponent, _) ← spanExponent? rest
    return sign ++ whole ++ fraction ++ exponent

/-- Reads a number. -/
def numberOf? (input : List Char) : Option (Parsed Char Json input.length) := do
  let spelling ← numberSpelling? input
  if h : 0 < spelling.length ∧ 0 < input.length then
    return ⟨.number spelling, input.drop spelling.length, by
      simp only [List.length_drop]; omega⟩
  else none

mutual

/-- Reads a value and the white space before it. -/
def valueOf? (input : List Char) : Option (Parsed Char Json input.length) :=
  match h : skipBlanks input with
  | 'n' :: 'u' :: 'l' :: 'l' :: rest => some ⟨.null, rest, by
      have := length_skipBlanks_le input; simp only [h, List.length_cons] at this; omega⟩
  | 't' :: 'r' :: 'u' :: 'e' :: rest => some ⟨.bool true, rest, by
      have := length_skipBlanks_le input; simp only [h, List.length_cons] at this; omega⟩
  | 'f' :: 'a' :: 'l' :: 's' :: 'e' :: rest => some ⟨.bool false, rest, by
      have := length_skipBlanks_le input; simp only [h, List.length_cons] at this; omega⟩
  | '"' :: rest => do
    let text ← stringOf? rest
    return (text.map .string).weaken (by
      have := length_skipBlanks_le input; simp only [h, List.length_cons] at this; omega)
  | '[' :: rest => do
    have : rest.length < input.length := by
      have := length_skipBlanks_le input; simp only [h, List.length_cons] at this; omega
    let items ← itemsOf? rest
    return (items.map .array).weaken (by omega)
  | '\x7b' :: rest => do
    have : rest.length < input.length := by
      have := length_skipBlanks_le input; simp only [h, List.length_cons] at this; omega
    let members ← membersOf? rest
    return (members.map .object).weaken (by omega)
  | rest => do
    let number ← numberOf? rest
    return number.weaken (h ▸ length_skipBlanks_le input)
termination_by 3 * input.length

/-- Reads the items of an array after its opening bracket. -/
def itemsOf? (input : List Char) : Option (Parsed Char (List Json) input.length) :=
  match h : skipBlanks input with
  | ']' :: rest => some ⟨[], rest, by
      have := length_skipBlanks_le input; simp only [h, List.length_cons] at this; omega⟩
  | _ => moreItemsOf? input
termination_by 3 * input.length + 2

/-- Reads one item or more and the bracket that ends the array. -/
def moreItemsOf? (input : List Char) : Option (Parsed Char (List Json) input.length) := do
  let first ← valueOf? input
  have := first.shorter
  match h : skipBlanks first.rest with
  | ',' :: rest => do
    have : rest.length < first.rest.length := by
      have := length_skipBlanks_le first.rest; simp only [h, List.length_cons] at this; omega
    let others ← moreItemsOf? rest
    return (others.map (first.value :: ·)).weaken (by omega)
  | ']' :: rest => return ⟨[first.value], rest, by
      have := length_skipBlanks_le first.rest; simp only [h, List.length_cons] at this; omega⟩
  | _ => none
termination_by 3 * input.length + 1

/-- Reads the members of an object after its opening brace. -/
def membersOf? (input : List Char) :
    Option (Parsed Char (List (Option String × Json)) input.length) :=
  match h : skipBlanks input with
  | '\x7d' :: rest => some ⟨[], rest, by
      have := length_skipBlanks_le input; simp only [h, List.length_cons] at this; omega⟩
  | _ => moreMembersOf? input
termination_by 3 * input.length + 2

/-- Reads one member or more and the brace that ends the object. -/
def moreMembersOf? (input : List Char) :
    Option (Parsed Char (List (Option String × Json)) input.length) :=
  match h : skipBlanks input with
  | '"' :: rest => do
    have : rest.length < input.length := by
      have := length_skipBlanks_le input; simp only [h, List.length_cons] at this; omega
    let key ← stringOf? rest
    have := key.shorter
    match hkey : skipBlanks key.rest with
    | ':' :: rest => do
      have : rest.length < key.rest.length := by
        have := length_skipBlanks_le key.rest; simp only [hkey, List.length_cons] at this; omega
      let value ← valueOf? rest
      have := value.shorter
      match hvalue : skipBlanks value.rest with
      | ',' :: rest => do
        have : rest.length < value.rest.length := by
          have := length_skipBlanks_le value.rest
          simp only [hvalue, List.length_cons] at this
          omega
        let others ← moreMembersOf? rest
        return (others.map ((key.value, value.value) :: ·)).weaken (by omega)
      | '\x7d' :: rest => return ⟨[(key.value, value.value)], rest, by
          have := length_skipBlanks_le value.rest
          simp only [hvalue, List.length_cons] at this
          omega⟩
      | _ => none
    | _ => none
  | _ => none
termination_by 3 * input.length + 1

end

/-- The value that a text spells, with nothing but white space around it. -/
def ofText? (text : String) : Option Json := do
  let value ← valueOf? text.toList
  if skipBlanks value.rest = [] then return value.value else none

end Calculator.Json
