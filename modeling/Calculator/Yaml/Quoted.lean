import Calculator.Parsed
import Calculator.Yaml.Line
import Calculator.Yaml.Plain

/-!
# Quoted scalars of YAML

How serde_yaml reads quoted scalars. Between single quotes a quote is written twice and everything
else stands for itself. Between double quotes a backslash begins an escape. In both, line breaks are
folded: the spaces around them vanish, a single line feed becomes a space, and of several the first
one vanishes.
-/

namespace Calculator.Yaml

/-- What line breaks in a row and spaces between them stand for. -/
def foldBreaks (gap : List Char) : List Char :=
  match gap.filter isBreak with
  | ['\n'] => [' ']
  | '\n' :: more => more
  | breaks => breaks

/-- The spaces, tabs and line breaks at the front of a list. -/
def gapOf (chars : List Char) : List Char := chars.takeWhile fun c => isSpace c || isBreak c

/-- Whether a gap ends at the beginning of a line with a marker, which no scalar can go past. -/
def meetsMarker (gap rest : List Char) : Bool :=
  gap.getLast?.any isBreak && beginsMarker (firstLine rest)

/-- Reads a text between single quotes after the first one. -/
def singleQuoted? (input : List Char) : Option (Parsed Char (List Char) input.length) :=
  match input with
  | [] => none
  | '\'' :: '\'' :: rest => do
    let others ← singleQuoted? rest
    return (others.map ('\'' :: ·)).weaken (Nat.le_add_right _ 2)
  | '\'' :: rest => some ⟨[], rest, Nat.lt_succ_self _⟩
  | c :: rest => do
    let gap := gapOf (c :: rest)
    if gap.any isBreak then
      let after := rest.drop (gap.length - 1)
      if meetsMarker gap after then none
      else
        let others ← singleQuoted? after
        return (others.map (foldBreaks gap ++ ·)).weaken (by
          simp only [after, List.length_cons, List.length_drop]; omega)
    else
      let others ← singleQuoted? rest
      return (others.map (c :: ·)).weaken (Nat.le_succ _)
termination_by input.length
decreasing_by
  all_goals simp only [List.length_cons, List.length_drop]
  all_goals omega

/-- The character that a letter after a backslash stands for. -/
def escape? : Char → Option Char
  | '0' => some (Char.ofNat 0)
  | 'a' => some (Char.ofNat 7)
  | 'b' => some (Char.ofNat 8)
  | 't' => some '\t'
  | '\t' => some '\t'
  | 'n' => some '\n'
  | 'v' => some (Char.ofNat 0x0B)
  | 'f' => some (Char.ofNat 0x0C)
  | 'r' => some '\r'
  | 'e' => some (Char.ofNat 0x1B)
  | ' ' => some ' '
  | '"' => some '"'
  | '/' => some '/'
  | '\\' => some '\\'
  | 'N' => some (Char.ofNat 0x85)
  | '_' => some (Char.ofNat 0xA0)
  | 'L' => some (Char.ofNat 0x2028)
  | 'P' => some (Char.ofNat 0x2029)
  | _ => none

/-- How many digits follow a letter after a backslash that names a character by number. -/
def escapeDigits? : Char → Option Nat
  | 'x' => some 2
  | 'u' => some 4
  | 'U' => some 8
  | _ => none

/-- Reads a text between double quotes after the first one. A backslash before a line break keeps
the line from ending there. -/
def doubleQuoted? (input : List Char) : Option (Parsed Char (List Char) input.length) :=
  match input with
  | [] => none
  | '"' :: rest => some ⟨[], rest, Nat.lt_succ_self _⟩
  | '\\' :: c :: rest =>
    match escapeDigits? c with
    | none => do
      if isBreak c then
        let gap := gapOf rest
        let after := rest.drop gap.length
        if meetsMarker (c :: gap) after then none
        else
          let others ← doubleQuoted? after
          return (others.map (gap.filter isBreak ++ ·)).weaken (by
            simp only [after, List.length_cons, List.length_drop]; omega)
      else
        let escaped ← escape? c
        let others ← doubleQuoted? rest
        return (others.map (escaped :: ·)).weaken (Nat.le_add_right _ 2)
    | some count =>
      if rest.length < count then none
      else do
        let named ← Text.charOfHex? (rest.take count)
        let others ← doubleQuoted? (rest.drop count)
        return (others.map (named :: ·)).weaken (by
          simp only [List.length_cons, List.length_drop]; omega)
  | c :: rest => do
    let gap := gapOf (c :: rest)
    if c == '\\' then none
    else if gap.any isBreak then
      let after := rest.drop (gap.length - 1)
      if meetsMarker gap after then none
      else
        let others ← doubleQuoted? after
        return (others.map (foldBreaks gap ++ ·)).weaken (by
          simp only [after, List.length_cons, List.length_drop]; omega)
    else
      let others ← doubleQuoted? rest
      return (others.map (c :: ·)).weaken (Nat.le_succ _)
termination_by input.length
decreasing_by
  all_goals simp only [List.length_cons, List.length_drop]
  all_goals omega

end Calculator.Yaml
