/-!
# Lines of YAML

How serde_yaml divides a file. It is cut into lines at line breaks of any script, and may hold no
control characters but tabs and line breaks. Most line breaks count as line feeds; the separators of
lines and of paragraphs keep their identity.
-/

namespace Calculator.Yaml

/-- Whether a character is a space or a tab. -/
def isSpace (c : Char) : Bool := c == ' ' || c == '\t'

/-- Whether a character breaks a line. -/
def isBreak (c : Char) : Bool :=
  c == '\n' || c == '\r' || c.toNat == 0x85 || c.toNat == 0x2028 || c.toNat == 0x2029

/-- Whether a character may stand in a file. -/
def isAllowed (c : Char) : Bool :=
  let n := c.toNat
  c == '\t' || isBreak c || (0x20 ≤ n && n ≤ 0x7E) || (0xA0 ≤ n && n ≠ 0xFFFE && n ≠ 0xFFFF)

/-- A text in which a carriage return, with the line feed after it if there is one, and a next line
are line feeds. -/
def unifyBreaks : List Char → List Char
  | [] => []
  | '\r' :: '\n' :: rest => '\n' :: unifyBreaks rest
  | c :: rest => (if c = '\r' ∨ c.toNat = 0x85 then '\n' else c) :: unifyBreaks rest

/-- The first line of a text, without the break after it. -/
def firstLine (text : List Char) : List Char := text.takeWhile fun c => !isBreak c

/-- What follows the first line of a text and the break after it. -/
def afterLine (text : List Char) : List Char := text.drop ((firstLine text).length + 1)

theorem length_afterLine (text : List Char) : (afterLine text).length ≤ text.length - 1 := by
  simp only [afterLine, List.length_drop]
  omega

/-- The mark of the byte order, which can begin a line. -/
def byteOrderMark : Char := '\uFEFF'

/-- The number of characters that indent a line: spaces, and perhaps a mark of the byte order before
them. -/
def indentation (line : List Char) : Nat :=
  let mark := if line.head? = some byteOrderMark then 1 else 0
  mark + ((line.drop mark).takeWhile (· == ' ')).length

/-- Whether a list is empty or begins with a space or a tab. -/
def beginsWithSpace (chars : List Char) : Bool := chars.head?.all isSpace

/-- Whether nothing but a comment follows on a line, past spaces and tabs. -/
def isCommentOrEnd (line : List Char) : Bool := (line.dropWhile isSpace).head?.all (· == '#')

/-- Whether a line begins with one of the marks that begin and end documents, before a space or the
end. -/
def beginsMarker (line : List Char) : Bool :=
  (line.take 3 == ['-', '-', '-'] || line.take 3 == ['.', '.', '.'])
    && beginsWithSpace (line.drop 3)

end Calculator.Yaml
