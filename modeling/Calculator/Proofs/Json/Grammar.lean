import Calculator.Json

/-!
# The grammar of JSON

The texts that spell a value, as relations that do not mention the reader. White space may stand
around every value, around the name of a member, and in an array or an object that is empty.

What stands between the quotes of a string spells code units of UTF-16, one or two for a character
that stands for itself and one for an escape. The string has the text with these units. It has none
if there is no such text, because a surrogate lacks its other half (`Names`).
-/

namespace Calculator.Json

/-! ## White space -/

/-- The white space of JSON. -/
def IsSpace (c : Char) : Prop := c = ' ' ∨ c = '\t' ∨ c = '\n' ∨ c = '\r'

instance : DecidablePred IsSpace := fun c =>
  inferInstanceAs (Decidable (c = ' ' ∨ c = '\t' ∨ c = '\n' ∨ c = '\r'))

/-- White space, or nothing. -/
def Blank (chars : List Char) : Prop := ∀ c ∈ chars, IsSpace c

/-! ## Strings -/

/-- The code units of a code point in UTF-16. -/
def codeUnits (point : Nat) : List Nat :=
  if point < 0x10000 then [point]
  else [0xD800 + (point - 0x10000) / 0x400, 0xDC00 + (point - 0x10000) % 0x400]

/-- The code units of a text in UTF-16. -/
def utf16 (text : List Char) : List Nat := text.flatMap fun c => codeUnits c.toNat

/-- The characters that have an escape of their own, and the mark that stands for each of them. -/
inductive Escape : Char → Char → Prop where
  | quote : Escape '"' '"'
  | backslash : Escape '\\' '\\'
  | slash : Escape '/' '/'
  | backspace : Escape 'b' '\x08'
  | formFeed : Escape 'f' '\x0c'
  | newLine : Escape 'n' '\n'
  | carriageReturn : Escape 'r' '\r'
  | tab : Escape 't' '\t'

/-- What stands between the quotes of a string, and the code units that it spells. -/
inductive SpellsUnits : List Char → List Nat → Prop where
  /-- The empty string. -/
  | nil : SpellsUnits [] []
  /-- A character that stands for itself. -/
  | char {c chars units} : c ≠ '"' → c ≠ '\\' → 0x20 ≤ c.toNat → SpellsUnits chars units →
      SpellsUnits (c :: chars) (codeUnits c.toNat ++ units)
  /-- An escape of one character. -/
  | escape {mark c chars units} : Escape mark c → SpellsUnits chars units →
      SpellsUnits ('\\' :: mark :: chars) (c.toNat :: units)
  /-- A code unit in four digits to base 16. -/
  | unit {a b c d i j k l chars units} : Text.hexValue? a = some i → Text.hexValue? b = some j →
      Text.hexValue? c = some k → Text.hexValue? d = some l → SpellsUnits chars units →
      SpellsUnits ('\\' :: 'u' :: a :: b :: c :: d :: chars)
        ((i * 0x1000 + j * 0x100 + k * 0x10 + l) :: units)

/-- The text that code units make up, if they make up one. -/
def Names (units : List Nat) : Option String → Prop
  | some text => utf16 text.toList = units
  | none => ∀ text, utf16 text ≠ units

/-- A string in its quotes, and its text. -/
inductive SpellsString : List Char → Option String → Prop where
  | quoted {chars units text} : SpellsUnits chars units → Names units text →
      SpellsString ('"' :: (chars ++ ['"'])) text

/-! ## Numbers -/

/-- One digit or more. -/
def Digits (chars : List Char) : Prop := chars ≠ [] ∧ ∀ c ∈ chars, c.isDigit = true

/-- A whole number, without zeros in front of it. -/
def IsWhole (chars : List Char) : Prop := Digits chars ∧ (chars.head? = some '0' → chars = ['0'])

/-- The fractional part of a number, if there is one. -/
inductive IsFraction : List Char → Prop where
  | absent : IsFraction []
  | present {digits} : Digits digits → IsFraction ('.' :: digits)

/-- The exponent of a number, if there is one. -/
inductive IsExponent : List Char → Prop where
  | absent : IsExponent []
  | present {mark sign digits} : mark = 'e' ∨ mark = 'E' → sign = [] ∨ sign = ['+'] ∨ sign = ['-'] →
      Digits digits → IsExponent (mark :: (sign ++ digits))

/-- A number without a sign. -/
inductive IsMagnitude : List Char → Prop where
  | parts {whole fraction exponent} : IsWhole whole → IsFraction fraction → IsExponent exponent →
      IsMagnitude (whole ++ (fraction ++ exponent))

/-- A number. -/
inductive IsNumber : List Char → Prop where
  | positive {chars} : IsMagnitude chars → IsNumber chars
  | negative {chars} : IsMagnitude chars → IsNumber ('-' :: chars)

/-! ## Values -/

/-- What a text may spell. -/
inductive Phrase where
  /-- A value. -/
  | value (value : Json)
  /-- A value with white space around it. -/
  | element (value : Json)
  /-- One item of an array or more, with commas between them. -/
  | items (items : List Json)
  /-- A member of an object. -/
  | member (key : Option String) (value : Json)
  /-- One member of an object or more, with commas between them. -/
  | members (members : List (Option String × Json))

/-- The texts that spell a phrase. -/
inductive Spells : Phrase → List Char → Prop where
  | null : Spells (.value .null) ['n', 'u', 'l', 'l']
  | true : Spells (.value (.bool true)) ['t', 'r', 'u', 'e']
  | false : Spells (.value (.bool false)) ['f', 'a', 'l', 's', 'e']
  /-- Any number, as it is spelled. -/
  | number {chars} : IsNumber chars → Spells (.value (.number chars)) chars
  | string {chars text} : SpellsString chars text → Spells (.value (.string text)) chars
  | emptyArray {blank} : Blank blank → Spells (.value (.array [])) ('[' :: (blank ++ [']']))
  | array {items chars} : Spells (.items items) chars →
      Spells (.value (.array items)) ('[' :: (chars ++ [']']))
  | emptyObject {blank} : Blank blank →
      Spells (.value (.object [])) ('\x7b' :: (blank ++ ['\x7d']))
  | object {members chars} : Spells (.members members) chars →
      Spells (.value (.object members)) ('\x7b' :: (chars ++ ['\x7d']))
  | element {before value chars after} : Blank before → Spells (.value value) chars →
      Blank after → Spells (.element value) (before ++ chars ++ after)
  /-- The last item. -/
  | lastItem {value chars} : Spells (.element value) chars → Spells (.items [value]) chars
  /-- An item before others. -/
  | item {value items chars others} : Spells (.element value) chars → Spells (.items items) others →
      Spells (.items (value :: items)) (chars ++ ',' :: others)
  | member {before key name after value chars} : Blank before → SpellsString name key →
      Blank after → Spells (.element value) chars →
      Spells (.member key value) (before ++ name ++ after ++ ':' :: chars)
  /-- The last member. -/
  | lastMember {key value chars} : Spells (.member key value) chars →
      Spells (.members [(key, value)]) chars
  /-- A member before others. -/
  | members {key value members chars others} : Spells (.member key value) chars →
      Spells (.members members) others →
      Spells (.members ((key, value) :: members)) (chars ++ ',' :: others)

end Calculator.Json
