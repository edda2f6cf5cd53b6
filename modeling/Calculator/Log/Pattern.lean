import Calculator.Text.Hexadecimal

/-!
# Patterns for values

The patterns that tracing-subscriber accepts for values. A filter can compare the value of a field
with a pattern. No value is compared here, but a pattern that is not well formed spoils the filter.
A pattern is built from characters, escapes, classes in brackets, groups in parentheses,
alternatives and repetitions. Counted repetitions and properties of characters by name need a
closing brace, which ends the field; escapes for classes and boundaries that depend on the script,
and matching in either case, are not provided. There is no bound here on how deep a pattern is
nested and on how much room it takes.
-/

namespace Calculator.Log.Pattern

/-- Whether a backslash before a character gives the character itself. -/
def isEscapable (c : Char) : Bool :=
  c.toNat < 0x80 && !c.isAlphanum && c != '<' && c != '>'

/-- The character with the number in the digits to base 16 at the front of a list, where `count`
digits are needed. -/
def numbered? (count : Nat) (chars : List Char) : Option Char :=
  if chars.length < count then none else Text.charOfHex? (chars.take count)

/-- Reads what follows a backslash: the character that it stands for, if it stands for one, and the
number of characters that are read. -/
def escape? : List Char → Option (Option Char × Nat)
  | [] => none
  | c :: rest =>
    match c with
    | 'a' => some (Char.ofNat 0x07, 1)
    | 'f' => some (Char.ofNat 0x0C, 1)
    | 't' => some ('\t', 1)
    | 'n' => some ('\n', 1)
    | 'r' => some ('\r', 1)
    | 'v' => some (Char.ofNat 0x0B, 1)
    | 'A' => some (none, 1)
    | 'z' => some (none, 1)
    | 'x' => (numbered? 2 rest).map fun named => (some named, 3)
    | 'u' => (numbered? 4 rest).map fun named => (some named, 5)
    | 'U' => (numbered? 8 rest).map fun named => (some named, 9)
    | c => if isEscapable c then some (c, 1) else none

/-- The names of the classes that a class in brackets can name. -/
def classNames : List String :=
  ["alnum", "alpha", "ascii", "blank", "cntrl", "digit", "graph", "lower", "print", "punct",
    "space", "upper", "word", "xdigit"]

/-- The number of characters after an opening bracket that name a class between colons. -/
def namedClass? : List Char → Option Nat
  | ':' :: rest =>
    let (mark, rest) := match rest with
      | '^' :: rest => (1, rest)
      | rest => (0, rest)
    let name := rest.takeWhile (· != ':')
    if String.ofList name ∈ classNames ∧ (rest.drop name.length).take 2 = [':', ']'] then
      some (mark + name.length + 3)
    else none
  | _ => none

/-- The number of characters after an opening bracket that open the class: a mark that negates it,
and hyphens, or else a closing bracket, that belong to it. -/
def classStart (rest : List Char) : Nat :=
  let mark := if rest.head? = some '^' then 1 else 0
  let hyphens := ((rest.drop mark).takeWhile (· == '-')).length
  if hyphens = 0 ∧ (rest.drop mark).head? = some ']' then mark + 1 else mark + hyphens

/-- A character in a class, and the number of characters that spell it. -/
def classItem? : List Char → Option (Char × Nat)
  | [] => none
  | '\\' :: rest =>
    match escape? rest with
    | some (some c, count) => some (c, count + 1)
    | _ => none
  | c :: _ => some (c, 1)

/-- The number of characters that spell a character or a range of characters in a class. -/
def classRange? (chars : List Char) : Option Nat := do
  let (first, count) ← classItem? chars
  match chars.drop count with
  | '-' :: after :: more =>
    if after = ']' ∨ after = '-' then return count
    else
      let (last, width) ← classItem? (after :: more)
      if first ≤ last then return count + 1 + width else none
  | _ => return count

/-- Whether the characters between a question mark and a colon or a closing parenthesis set options:
none twice, and some after a hyphen. -/
def areOptions (options : List Char) : Bool :=
  options.all (fun c => c ∈ ['m', 's', 'U', 'u', 'R', 'x', '-']) && decide options.Nodup
    && options.getLast? != some '-'

/-- Whether characters can name a group. -/
def isGroupName : List Char → Bool
  | [] => false
  | c :: rest =>
    (c.isAlpha || c == '_') && rest.all fun c => c.isAlphanum || c ∈ ['_', '.', '[', ']']

/-- Reads what follows an opening parenthesis: whether a group opens, and the number of characters
that say so. -/
def groupStart? : List Char → Option (Bool × Nat)
  | '?' :: 'P' :: '<' :: rest => named 3 rest
  | '?' :: '<' :: rest => named 2 rest
  | '?' :: rest =>
    let options := rest.takeWhile fun c => c != ':' && c != ')'
    match rest.drop options.length with
    | ':' :: _ => if areOptions options then some (true, options.length + 2) else none
    | ')' :: _ =>
      if areOptions options && !options.isEmpty then some (false, options.length + 2) else none
    | _ => none
  | _ => some (true, 0)
where
  /-- Reads a name and the mark after it. -/
  named (before : Nat) (rest : List Char) : Option (Bool × Nat) :=
    let name := rest.takeWhile (· != '>')
    if isGroupName name && (rest.drop name.length).head? == some '>' then
      some (true, before + name.length + 1)
    else none

/-- Whether the rest of a pattern is well formed, inside of as many groups and classes as are given.
With `repeatable` something stands before it that can be repeated. -/
def scan (groups classes : Nat) (repeatable : Bool) (pattern : List Char) : Bool :=
  match pattern with
  | [] => groups == 0 && classes == 0
  | c :: rest =>
    if classes = 0 then
      match c with
      | '(' =>
        match groupStart? rest with
        | some (opens, count) =>
          scan (if opens then groups + 1 else groups) 0 false (rest.drop count)
        | none => false
      | ')' => groups != 0 && scan (groups - 1) 0 true rest
      | '|' => scan groups 0 false rest
      | '*' => repeatable && scan groups 0 true rest
      | '+' => repeatable && scan groups 0 true rest
      | '?' => repeatable && scan groups 0 true rest
      | '\x7b' => false
      | '[' => scan groups 1 true (rest.drop (classStart rest))
      | '\\' =>
        match escape? rest with
        | some (_, count) => scan groups 0 true (rest.drop count)
        | none => false
      | _ => scan groups 0 true rest
    else if c = '[' then
      match namedClass? rest with
      | some count => scan groups classes true (rest.drop count)
      | none => scan groups (classes + 1) true (rest.drop (classStart rest))
    else if c = ']' then scan groups (classes - 1) true rest
    else if c ∈ ['&', '-', '~'] ∧ rest.head? = some c then
      scan groups classes true (rest.drop 1)
    else
      match classRange? (c :: rest) with
      | some count => scan groups classes true (rest.drop (count - 1))
      | none => false
termination_by pattern.length
decreasing_by all_goals simp only [List.length_cons, List.length_drop]; omega

/-- Whether a text is a well-formed pattern. -/
def isWellFormed (pattern : List Char) : Bool := scan 0 0 false pattern

end Calculator.Log.Pattern
