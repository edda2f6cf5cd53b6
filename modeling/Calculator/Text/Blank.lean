import Calculator.Text.Case

/-!
# White space, and the normal form of what a user types

Input is trimmed of white space of any script and put into lower case before it is looked at.
-/

namespace Calculator.Text

/-- Whether a character is white space in any script. -/
def isBlank (c : Char) : Bool :=
  let n := c.toNat
  (9 ≤ n && n ≤ 13) || n == 0x20 || n == 0x85 || n == 0xA0 || n == 0x1680
    || (0x2000 ≤ n && n ≤ 0x200A) || n == 0x2028 || n == 0x2029 || n == 0x202F || n == 0x205F
    || n == 0x3000

/-- A text without the white space at its ends. -/
def trimChars (text : List Char) : List Char :=
  ((text.dropWhile isBlank).reverse.dropWhile isBlank).reverse

/-- A text without the white space at its ends. -/
def trim (text : String) : String :=
  String.ofList (trimChars text.toList)

/-- A text with its ASCII capitals in lower case. -/
def asciiLower (text : String) : String :=
  String.ofList (text.toList.map Char.toLower)

/-- A trimmed text in lower case. -/
def normalize (text : String) : String :=
  String.ofList (lower (trimChars text.toList))

end Calculator.Text
