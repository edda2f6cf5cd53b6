import Calculator.Yaml.Mapping

/-!
# Writing texts as YAML scalars

How serde_yaml writes texts. A text is written plain where it reads back as the same text that way.
Otherwise it is put between single quotes, or between double quotes if it holds characters that only
an escape can name. A text of several lines is written as a block.
-/

namespace Calculator.Yaml

/-- Whether a character can be written as itself. -/
def isPrintable (c : Char) : Bool :=
  let n := c.toNat
  n == 0x0A || (0x20 ≤ n && n ≤ 0x7E) || (0xA0 ≤ n && n != 0xFEFF && n != 0xFFFE && n != 0xFFFF)

/-- Whether a character is a space, a tab, a line break or the end. -/
def isBlankOrEnd : Option Char → Bool
  | none => true
  | some c => isSpace c || isBreak c || c.toNat == 0

/-- Whether a text has a place at which a space follows a line break. -/
def hasSpaceAfterBreak : List Char → Bool
  | a :: b :: rest => (isBreak a && b == ' ') || hasSpaceAfterBreak (b :: rest)
  | _ => false

/-- Whether a text has a place at which a line break follows a space. -/
def hasBreakAfterSpace : List Char → Bool
  | a :: b :: rest => (a == ' ' && isBreak b) || hasBreakAfterSpace (b :: rest)
  | _ => false

/-- Whether a mark after the first character of a text would be taken for the end of the scalar. -/
def hasSeparator (before : Char) : List Char → Bool
  | [] => false
  | c :: rest =>
    (c == ':' && isBlankOrEnd rest.head?) || (c == '#' && isBlankOrEnd (some before))
      || hasSeparator c rest

/-- Whether a text would not be taken for a plain scalar as a whole. -/
def hasIndicator : List Char → Bool
  | [] => false
  | c :: rest =>
    let text := c :: rest
    "---".toList.isPrefixOf text || "...".toList.isPrefixOf text || isIndicator c
      || ((c == '?' || c == ':' || c == '-') && isBlankOrEnd rest.head?) || hasSeparator c rest

/-- The ways to write a text. -/
inductive Style where
  | plain
  | singleQuoted
  | doubleQuoted
  | block
  deriving DecidableEq

/-- Whether a text needs escapes. -/
def needsEscapes (text : List Char) : Bool :=
  hasBreakAfterSpace text || text.any fun c => !isPrintable c

/-- The style in which a text of one line is written. -/
def lineStyle (text : List Char) : Style :=
  let resolved := ofPlain text != .text (String.ofList text) || isZeroPadded text
  let atEnds := text.head?.any (fun c => c == ' ' || isBreak c)
    || text.getLast?.any (fun c => c == ' ' || isBreak c)
  if !(resolved || atEnds || needsEscapes text || hasIndicator text || hasSpaceAfterBreak text
      || text.any isBreak) then .plain
  else if needsEscapes text || hasSpaceAfterBreak text then .doubleQuoted
  else .singleQuoted

/-- The style in which a text is written. -/
def styleOf (text : List Char) : Style :=
  if text.contains '\n' then
    if needsEscapes text || text.getLast? == some ' ' then .doubleQuoted else .block
  else lineStyle text

/-- The last `count` digits of a number to base 16, in upper case. -/
def upperHex : Nat → Nat → List Char
  | 0, _ => []
  | count + 1, n => upperHex count (n / 16) ++ [(Text.hexDigit (n % 16)).toUpper]

/-- A character as it is written between double quotes. -/
def escapeChar (c : Char) : List Char :=
  let n := c.toNat
  if c == '"' then ['\\', '"']
  else if c == '\\' then ['\\', '\\']
  else if isPrintable c && !isBreak c then [c]
  else if n == 0 then ['\\', '0']
  else if n == 7 then ['\\', 'a']
  else if n == 8 then ['\\', 'b']
  else if n == 9 then ['\\', 't']
  else if n == 0x0A then ['\\', 'n']
  else if n == 0x0B then ['\\', 'v']
  else if n == 0x0C then ['\\', 'f']
  else if n == 0x0D then ['\\', 'r']
  else if n == 0x1B then ['\\', 'e']
  else if n == 0x85 then ['\\', 'N']
  else if n == 0x2028 then ['\\', 'L']
  else if n == 0x2029 then ['\\', 'P']
  else if n ≤ 0xFF then '\\' :: 'x' :: upperHex 2 n
  else if n ≤ 0xFFFF then '\\' :: 'u' :: upperHex 4 n
  else '\\' :: 'U' :: upperHex 8 n

/-- A text whose lines are indented by two spaces each, unless they are empty; `begins` tells
whether a line begins with it. -/
def indentLines (begins : Bool) : List Char → List Char
  | [] => []
  | c :: rest =>
    if isBreak c then c :: indentLines true rest
    else (if begins then [' ', ' '] else []) ++ c :: indentLines false rest

/-- A text between single quotes. The quote after a line break is indented. -/
def singleQuote (text : List Char) : List Char :=
  let doubled := text.flatMap fun c => if c = '\'' then ['\'', '\''] else [c]
  let margin := if text.getLast?.any isBreak then [' ', ' '] else []
  '\'' :: (indentLines false doubled ++ margin ++ ['\''])

/-- A text between double quotes. -/
def doubleQuote (text : List Char) : List Char :=
  '"' :: (text.flatMap escapeChar ++ ['"'])

/-- A text as a block after a vertical bar, with marks for a first line that begins with a space or
is empty, and for what ends the last line: nothing, or a line break that is not the only one there,
or nothing else at all. -/
def block (text : List Char) : List Char :=
  let indent := if text.head?.any (fun c => c == ' ' || isBreak c) then ['2'] else []
  let chomp :=
    if !text.getLast?.any isBreak then ['-']
    else if text.dropLast.getLast?.all isBreak then ['+']
    else []
  '|' :: (indent ++ chomp ++ '\n' :: indentLines true text)

/-- A text as a scalar. -/
def scalarChars (text : List Char) : List Char :=
  match styleOf text with
  | .plain => text
  | .singleQuoted => singleQuote text
  | .doubleQuoted => doubleQuote text
  | .block => block text

/-- An entry on a line of its own, which ends with the value if that ends with a line break. -/
def entryLine (key : String) (value : List Char) : List Char :=
  key.toList ++ ':' :: ' ' :: (value ++ if value.getLast?.any isBreak then [] else ['\n'])

end Calculator.Yaml
