import Calculator.Yaml.Quoted

/-!
# Flat mappings of YAML

The files that serde_yaml reads as flat mappings. A configuration file is a list of entries
`key: value`, each on a line of its own and all with the same indentation, between blank lines and
comments. Keys and values are plain or quoted; only a quoted value can go on over several lines. A
list or a table in brackets is recognised as a value, but what it holds is not looked at.
-/

namespace Calculator.Yaml

/-- A list without the spaces and tabs at its end. -/
def dropTrailingSpaces (chars : List Char) : List Char :=
  (chars.reverse.dropWhile isSpace).reverse

/-- The part of a plain scalar before a comment, which a space and a number sign begin. -/
def beforeComment : List Char → List Char
  | [] => []
  | c :: rest => if isSpace c && rest.head? == some '#' then [] else c :: beforeComment rest

/-- Whether a character is a mark that no plain scalar begins with. -/
def isIndicator (c : Char) : Bool :=
  c ∈ [',', '[', ']', '\x7b', '\x7d', '#', '&', '*', '!', '|', '>', '\'', '"', '%', '@', '\x60']

/-- Whether a plain scalar can begin a line: it begins with no mark, and with no hyphen or question
mark before a space. -/
def beginsPlain : List Char → Bool
  | [] => true
  | c :: rest => !isIndicator c && !((c == '-' || c == '?') && beginsWithSpace rest)

/-- Whether a line holds no colon that a space or the end follows. -/
def noSeparator : List Char → Bool
  | [] => true
  | c :: rest => !(c == ':' && beginsWithSpace rest) && noSeparator rest

/-- Whether the text of a line can be a plain scalar as a whole. -/
def isPlain (chars : List Char) : Bool := beginsPlain chars && noSeparator chars

/-- Splits a line at the colon that ends a plain key. -/
def splitKey? : List Char → Option (List Char × List Char)
  | [] => none
  | c :: rest =>
    if c == ':' && beginsWithSpace rest then some ([], c :: rest)
    else if isSpace c && rest.head? == some '#' then none
    else (splitKey? rest).map fun (key, value) => (c :: key, value)

/-- The key of a line, and what follows it from the colon on. -/
def lineKey? : List Char → Option (List Char × List Char)
  | '\'' :: rest => (singleQuoted? rest).map fun key => (key.value, key.rest.dropWhile isSpace)
  | '"' :: rest => (doubleQuoted? rest).map fun key => (key.value, key.rest.dropWhile isSpace)
  | line => do
    let (key, rest) ← splitKey? line
    if key.isEmpty || !beginsPlain line then none
    else return (dropTrailingSpaces key, rest)

/-- A value, and whether it is a plain scalar that reaches to the end of its line. -/
structure EntryValue where
  /-- The value. -/
  value : Scalar
  /-- Whether nothing follows a plain scalar on its line. -/
  plainToEnd : Bool

/-- The value on a line without the spaces before it. -/
def ofLine? (line : List Char) : Option EntryValue :=
  let whole := beforeComment line
  let text := dropTrailingSpaces whole
  match text.head?, text.getLast? with
  | some '[', some ']' => some ⟨.collection, false⟩
  | some '\x7b', some '\x7d' => some ⟨.collection, false⟩
  | _, _ => if isPlain text then some ⟨ofPlain text, whole.length == line.length⟩ else none

/-- The value of a quoted scalar after which only a comment follows on the line, and the lines after
it. -/
def ofQuoted? {n : Nat} (scalar : Parsed Char (List Char) n) : Option (Parsed Char EntryValue n) :=
  if isCommentOrEnd (firstLine scalar.rest) then
    some ⟨⟨.text (String.ofList scalar.value), false⟩, afterLine scalar.rest,
      Nat.lt_of_le_of_lt (Nat.le_trans (length_afterLine scalar.rest) (Nat.sub_le _ 1))
        scalar.shorter⟩
  else none

/-- Reads the value after a key, up to the end of its line. -/
def valueOf? (input : List Char) : Option (Parsed Char EntryValue (input.length + 1)) :=
  let text := input.dropWhile isSpace
  have h : text.length ≤ input.length := (List.dropWhile_sublist _).length_le
  match ht : text with
  | '\'' :: rest => do
    return (← ofQuoted? (← singleQuoted? rest)).weaken (Nat.le_succ_of_le (Nat.le_of_succ_le h))
  | '"' :: rest => do
    return (← ofQuoted? (← doubleQuoted? rest)).weaken (Nat.le_succ_of_le (Nat.le_of_succ_le h))
  | text => do
    let line := firstLine text
    let value ← if isCommentOrEnd line then some ⟨.null, false⟩ else ofLine? line
    return ⟨value, afterLine text, by have := length_afterLine text; omega⟩

/-- The most characters from the beginning of a key to the colon after it. -/
def keyLimit : Nat := 1024

/-- An entry, and whether its value is a plain scalar that reaches to the end of its line. -/
structure Entry extends EntryValue where
  /-- The key. -/
  key : String

/-- Reads an entry without its indentation, up to the end of its line. -/
def entryOf? (input : List Char) : Option (Parsed Char Entry input.length) := do
  let line := firstLine input
  let (key, rest) ← lineKey? line
  let size := line.length - rest.length
  let marked := rest.head? == some ':' && beginsWithSpace (rest.drop 1)
  if h : 0 < input.length ∧ marked ∧ size ≤ keyLimit then
    let value ← valueOf? (input.drop (size + 1))
    return (value.map fun value => ⟨value, String.ofList key⟩).weaken (by
      simp only [List.length_drop]; omega)
  else none

/-- Whether a line is the given marker with nothing but a comment after it. -/
def isMarker (marker : String) (line : List Char) : Bool :=
  line.take 3 == marker.toList && beginsMarker line && isCommentOrEnd (line.drop 3)

/-- Where in a file an entry is expected. -/
structure Place where
  /-- Whether a marker or an entry has begun the document. -/
  begun : Bool := false
  /-- The column in which the entries begin. -/
  column : Option Nat := none
  /-- Whether nothing but blank lines has come since a plain scalar. -/
  afterPlain : Bool := false

/-- Reads the entries from a place on. A tab can stand before the text of a line only if it lies
beyond the column of the entries, with no entry on that line and only blank lines between it and a
plain scalar. -/
def entriesOf? (place : Place) (input : List Char) : Option (List (String × Scalar)) :=
  match input with
  | [] => some []
  | c :: more => do
    let line := firstLine (c :: more)
    let rest := afterLine (c :: more)
    let start := indentation line
    let place := { place with
      afterPlain := place.afterPlain && line.head? != some byteOrderMark }
    if isMarker "---" line && !place.begun then entriesOf? { begun := true } rest
    else if isMarker "..." line then
      let others ← entriesOf? { begun := true } rest
      if others.isEmpty then return [] else none
    else
      match line.drop start with
      | [] => entriesOf? place rest
      | '#' :: _ => entriesOf? { place with afterPlain := false } rest
      | '\t' :: text =>
        if place.afterPlain && place.column.any (· < start) && isCommentOrEnd text then
          entriesOf? { place with afterPlain := text.all isSpace } rest
        else none
      | _ =>
        if place.column.all (· = start) then
          let entry ← entryOf? ((c :: more).drop start)
          have := entry.shorter
          let others ← entriesOf? ⟨true, some start, entry.value.plainToEnd⟩ entry.rest
          return (entry.value.key, entry.value.value) :: others
        else none
termination_by input.length
decreasing_by
  all_goals have := length_afterLine (c :: more)
  all_goals simp only [List.length_cons, List.length_drop] at *
  all_goals omega

/-- The entries of a file, in order. -/
def mapping? (text : String) : Option (List (String × Scalar)) :=
  if text.toList.all isAllowed then entriesOf? {} (unifyBreaks text.toList) else none

end Calculator.Yaml
