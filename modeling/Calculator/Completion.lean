import Calculator.Builtin
import Calculator.Text.Bytes
import Calculator.Token

/-!
# Completing what is being typed

The end of a line is completed to the names that the calculator knows: to commands if the line
begins with a colon, and else to functions, with their opening parenthesis, and to constants. The
word that is completed begins one byte after the last character that cannot stand in a name. There
is no completion where no character begins there, because that character has more than one byte.
-/

namespace Calculator

/-- A name to choose from. -/
structure Candidate where
  /-- What is shown. -/
  display : String
  /-- What takes the place of the word. -/
  replacement : String
  deriving DecidableEq

/-- What can take the place of the end of a line. -/
structure Completion where
  /-- The byte offset at which the word begins. -/
  start : Nat
  /-- What it can be replaced with. -/
  candidates : List Candidate
  deriving DecidableEq

namespace Completion

/-- The commands that are offered. -/
def commands : List String := [":deg", ":rad", ":help", ":quit"]

/-- The functions and then the constants whose names begin with the given word. -/
def names (word : List Char) : List Candidate :=
  let begins := fun name : String => word.isPrefixOf name.toList
  ((Builtin.sorted.map Builtin.name).filter begins).map (fun name => ⟨name ++ "()", name ++ "("⟩)
    ++ ((Constant.all.map Constant.name).filter begins).map (fun name => ⟨name, name⟩)

/-- Completes the end of a line. -/
def ofLine? (line : List Char) : Option Completion :=
  match line with
  | ':' :: _ =>
    some ⟨0, (commands.filter fun command => line.isPrefixOf command.toList).map fun command =>
      ⟨command, command⟩⟩
  | _ =>
    let word := (line.reverse.takeWhile Token.isNameChar).reverse
    let before := line.take (line.length - word.length)
    match before.getLast? with
    | some c => if c.utf8Size = 1 then some (completeWord (Text.byteLength before) word) else none
    | none => some (completeWord 0 word)
where
  completeWord (start : Nat) (word : List Char) : Completion :=
    ⟨start, if word.isEmpty then [] else names (word.map Char.toLower)⟩

/-- Completes the text of a line before the byte offset of the cursor, if the line can be cut
there. -/
def atCursor? (line : String) (cursor : Nat) : Option Completion := do
  let (front, _) ← Text.cut? cursor line.toList
  ofLine? front

end Completion

end Calculator
