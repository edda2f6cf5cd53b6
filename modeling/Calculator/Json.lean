import Calculator.Decimal.Basic
import Calculator.Text.Hexadecimal

/-!
# JSON values

A value as it stands in a text: numbers keep their spelling and objects the order of their members.
The escapes of a string may name halves of a surrogate pair without the other half; such a string
has no text.

Values are written compactly, or with each member and item on a line of its own.
-/

namespace Calculator

/-- A JSON value. -/
inductive Json where
  | null
  | bool (value : Bool)
  /-- A number, as it is spelled. -/
  | number (spelling : List Char)
  /-- A string, without text if its escapes do not name one. -/
  | string (text : Option String)
  | array (items : List Json)
  /-- The members in order, with their keys. -/
  | object (members : List (Option String × Json))

namespace Json

/-- A string with a text. -/
def ofString (text : String) : Json := .string (some text)

/-- An object with the given members. -/
def ofMembers (members : List (String × Json)) : Json :=
  .object (members.map fun (key, value) => (some key, value))

/-- The natural number that a value is, if it is spelled as one. -/
def natural? : Json → Option Nat
  | number spelling =>
    if spelling.all Char.isDigit then some (ofNumeral spelling) else none
  | _ => none

/-- The text that a value is. -/
def text? : Json → Option String
  | string text => text
  | _ => none

/-- A character as it is written in a string. -/
def escapeChar (c : Char) : List Char :=
  if c = '"' then ['\\', '"']
  else if c = '\\' then ['\\', '\\']
  else if c = '\x08' then ['\\', 'b']
  else if c = '\x0c' then ['\\', 'f']
  else if c = '\n' then ['\\', 'n']
  else if c = '\r' then ['\\', 'r']
  else if c = '\t' then ['\\', 't']
  else if c.toNat < 0x20 then
    ['\\', 'u', '0', '0', Text.hexDigit (c.toNat / 16), Text.hexDigit (c.toNat % 16)]
  else [c]

/-- A text as a string with its quotes. -/
def quote (text : List Char) : List Char :=
  '"' :: (text.flatMap escapeChar ++ ['"'])

/-- The characters of a string. One without text is written empty. -/
def stringChars (text : Option String) : List Char :=
  quote (text.getD "").toList

mutual

/-- A value without any white space. -/
def compact : Json → List Char
  | null => ['n', 'u', 'l', 'l']
  | bool true => ['t', 'r', 'u', 'e']
  | bool false => ['f', 'a', 'l', 's', 'e']
  | number spelling => spelling
  | string text => stringChars text
  | array items => '[' :: (compactItems items ++ [']'])
  | object members => '\x7b' :: (compactMembers members ++ ['\x7d'])

/-- Items with commas between them. -/
def compactItems : List Json → List Char
  | [] => []
  | [last] => compact last
  | first :: others => compact first ++ ',' :: compactItems others

/-- Members with commas between them. -/
def compactMembers : List (Option String × Json) → List Char
  | [] => []
  | [(key, value)] => stringChars key ++ ':' :: compact value
  | (key, value) :: others =>
    stringChars key ++ ':' :: (compact value ++ ',' :: compactMembers others)

end

/-- A new line that begins with two spaces for each level. -/
def newLine (level : Nat) : List Char := '\n' :: List.replicate (2 * level) ' '

mutual

/-- A value with each member and each item on a line of its own, at the given level. -/
def indented (level : Nat) : Json → List Char
  | array [] => ['[', ']']
  | object [] => ['\x7b', '\x7d']
  | array items => '[' :: (indentedItems (level + 1) items ++ newLine level ++ [']'])
  | object members => '\x7b' :: (indentedMembers (level + 1) members ++ newLine level ++ ['\x7d'])
  | null => ['n', 'u', 'l', 'l']
  | bool true => ['t', 'r', 'u', 'e']
  | bool false => ['f', 'a', 'l', 's', 'e']
  | number spelling => spelling
  | string text => stringChars text

/-- Items on lines of their own. -/
def indentedItems (level : Nat) : List Json → List Char
  | [] => []
  | [last] => newLine level ++ indented level last
  | first :: others => newLine level ++ indented level first ++ ',' :: indentedItems level others

/-- Members on lines of their own. -/
def indentedMembers (level : Nat) : List (Option String × Json) → List Char
  | [] => []
  | [(key, value)] => newLine level ++ stringChars key ++ ':' :: ' ' :: indented level value
  | (key, value) :: others =>
    newLine level ++ stringChars key ++ ':' :: ' ' :: (indented level value
      ++ ',' :: indentedMembers level others)

end

/-- The compact text of a value. -/
def text (value : Json) : String := String.ofList value.compact

/-- The text of a value over several lines. -/
def pretty (value : Json) : String := String.ofList (value.indented 0)

end Json

end Calculator
