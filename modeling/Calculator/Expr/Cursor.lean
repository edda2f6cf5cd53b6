import Calculator.Expr.Parser
import Calculator.Word

/-!
# Parsing with a cursor

The functions of the grammar as they are carried out on lexemes that stay where they are. A cursor
goes along the lexemes, and one count of the levels that are in use, a word of 64 bits, goes up and
down with the calls. A chain raises the count for each of its operations and puts it back in the
end; a minus sign, an exponent, a call and a parenthesis raise it by one and lower it by one. A
failure ends the functions that are under way at once, but does not keep them from lowering the
count or from putting it back.

Every change of the cursor or of the count leads to another place, and the places are kept. A change
of the count that no word can hold stops the parser, and so does a call that is nested more deeply
than there is room for; `parse` has room enough for its lexemes.
-/

namespace Calculator.Expr.Cursor

/-- A place in a run of the parser. -/
structure Place where
  /-- The number of lexemes that the cursor has gone past. -/
  cursor : Nat
  /-- The number of levels that are in use. -/
  depth : BitVec 64

/-- Where the parser stands and where it has been. -/
structure State where
  /-- The place where it stands. -/
  place : Place
  /-- The places before, the last one first. -/
  passed : List Place

/-- All places of a run. -/
def State.places (s : State) : List Place := s.place :: s.passed

/-- Goes to a place. -/
def State.moveTo (s : State) (place : Place) : State := ⟨place, s.places⟩

/-- Goes to the place behind the next lexeme. -/
def State.pastNext (s : State) : State := s.moveTo ⟨s.place.cursor + 1, s.place.depth⟩

/-- Goes to the same lexeme with another count of levels. -/
def State.onDepth (s : State) (depth : BitVec 64) : State := s.moveTo ⟨s.place.cursor, depth⟩

@[simp] theorem State.pastNext_cursor (s : State) :
    s.pastNext.place.cursor = s.place.cursor + 1 := rfl

@[simp] theorem State.pastNext_depth (s : State) : s.pastNext.place.depth = s.place.depth := rfl

@[simp] theorem State.onDepth_cursor (s : State) (depth : BitVec 64) :
    (s.onDepth depth).place.cursor = s.place.cursor := rfl

@[simp] theorem State.onDepth_depth (s : State) (depth : BitVec 64) :
    (s.onDepth depth).place.depth = depth := rfl

/-- Why a function of the parser stops without a value. -/
inductive Halt where
  /-- The lexemes are no expression. -/
  | failure (f : Failure)
  /-- The levels that are in use cannot be counted: there are less than none, or too many for a
  word. -/
  | uncountable
  /-- There is no room for another call. -/
  | outOfRoom

/-- What a function of the parser does. The state is there also after a failure. -/
abbrev Action (α : Type) : Type := ExceptT Halt (StateM State) α

variable {α : Type} (lexemes : List Lexeme)

/-- The token at the cursor. Lexemes that stop without a token of the end have ended as well. -/
def tokenAt (cursor : Nat) : Token := (lexemes[cursor]?.map Lexeme.token).getD .endOfInput

/-- The byte offset of the lexeme at the cursor, or of the last one. -/
def offsetAt (cursor : Nat) : Nat :=
  ((lexemes[cursor]?.or lexemes.getLast?).map Lexeme.offset).getD 0

/-- Looks at the next token. -/
def peek : Action Token := fun s => (.ok (tokenAt lexemes s.place.cursor), s)

/-- Goes past a lexeme. -/
def advance : Action Unit := fun s =>
  if s.place.cursor < lexemes.length then (.ok (), s.pastNext) else (.ok (), s)

/-- Fails because of the next token. -/
def refuse : Action α := fun s =>
  match tokenAt lexemes s.place.cursor with
  | .endOfInput => (.error (.failure .unexpectedEnd), s)
  | token =>
    (.error (.failure (.unexpectedToken token.text (offsetAt lexemes s.place.cursor))), s)

/-- Goes past the given token, or fails. -/
def expect (token : Token) : Action Unit := do
  if (← peek lexemes) = token then advance lexemes else refuse lexemes

/-- Takes a level, which is counted also if it is one too many. -/
def enterLevel : Action Unit := fun s =>
  match Word.add? s.place.depth 1 with
  | none => (.error .uncountable, s)
  | some deeper =>
    if maxDepth < deeper.toNat then
      (.error (.failure (.invalid .nestedTooDeeply)), s.onDepth deeper)
    else (.ok (), s.onDepth deeper)

/-- Gives a level back. -/
def leaveLevel : Action Unit := fun s =>
  match Word.sub? s.place.depth 1 with
  | none => (.error .uncountable, s)
  | some higher => (.ok (), s.onDepth higher)

/-- Puts the count of levels back to what it was. -/
def resetLevels (depth : BitVec 64) : Action Unit := fun s => (.ok (), s.onDepth depth)

/-- Carries out `exit` after an action, also after one that fails, and ends as the action does. -/
def withExit (action : Action α) (exit : Action Unit) : Action α := fun s =>
  match action s with
  | (.ok a, s') => (exit >>= fun _ => pure a) s'
  | (.error (.failure f), s') => (exit >>= fun _ => throw (.failure f)) s'
  | halted => halted

/-- Carries out an action and puts the count of levels back. -/
def restoring (action : Action α) : Action α := fun s =>
  withExit action (resetLevels s.place.depth) s

/-- Goes past a lexeme that costs a level, and carries out an action on that level. -/
def onLevel (action : Action α) : Action α := do
  advance lexemes
  enterLevel
  withExit action leaveLevel

/-- Reads the rest of a chain after the expression `left`. -/
def chainFrom (operand : Action Expr) (operation? : Token → Option Operation) :
    Nat → Expr → Action Expr
  | 0, _ => throw .outOfRoom
  | room + 1, left => do
    match operation? (← peek lexemes) with
    | none => return left
    | some operation =>
      advance lexemes
      enterLevel
      let right ← operand
      chainFrom operand operation? room (.binary operation left right)

/-- Reads a chain of operands. -/
def chain (room : Nat) (operand : Action Expr) (operation? : Token → Option Operation) :
    Action Expr :=
  restoring do
    let first ← operand
    chainFrom lexemes operand operation? room first

/-- Reads more arguments and the parenthesis that ends the call, after the arguments `before`. -/
def argumentsFrom (argument : Action Expr) : Nat → List Expr → Action (List Expr)
  | 0, _ => throw .outOfRoom
  | room + 1, before => do
    let next ← argument
    match ← peek lexemes with
    | .comma =>
      advance lexemes
      argumentsFrom argument room (before ++ [next])
    | .rightParen =>
      advance lexemes
      return before ++ [next]
    | _ => refuse lexemes

mutual

/-- Reads a chain of sums. -/
def sum : Nat → Action Expr
  | 0 => throw .outOfRoom
  | room + 1 => chain lexemes room (product room) sumOperation?

/-- Reads a chain of products. -/
def product : Nat → Action Expr
  | 0 => throw .outOfRoom
  | room + 1 => chain lexemes room (signed room) productOperation?

/-- Reads a power after any number of minus signs. -/
def signed : Nat → Action Expr
  | 0 => throw .outOfRoom
  | room + 1 => do
    match ← peek lexemes with
    | .minus => return .negate (← onLevel lexemes (signed room))
    | _ => power room

/-- Reads a primary expression and perhaps an exponent. -/
def power : Nat → Action Expr
  | 0 => throw .outOfRoom
  | room + 1 => do
    let base ← primary room
    match ← peek lexemes with
    | .caret => return .binary .pow base (← onLevel lexemes (signed room))
    | _ => return base

/-- Reads a number, a name, a call or an expression in parentheses. -/
def primary : Nat → Action Expr
  | 0 => throw .outOfRoom
  | room + 1 => do
    match ← peek lexemes with
    | .number value =>
      advance lexemes
      return .literal value
    | .name text =>
      advance lexemes
      match ← peek lexemes with
      | .leftParen => return .call text (← onLevel lexemes (arguments room))
      | _ => return .name text
    | .leftParen => onLevel lexemes do
      let inner ← sum room
      expect lexemes .rightParen
      return inner
    | _ => refuse lexemes

/-- Reads the arguments of a call and the parenthesis that ends it. -/
def arguments : Nat → Action (List Expr)
  | 0 => throw .outOfRoom
  | room + 1 => do
    match ← peek lexemes with
    | .rightParen =>
      advance lexemes
      return []
    | _ => argumentsFrom lexemes (sum room) room []

end

/-- Room enough for the calls that a number of lexemes can lead to. -/
def roomFor (count : Nat) : Nat := 7 * count + 6

/-- Reads an expression up to the end of the lexemes. -/
def whole : Action Expr := do
  let tree ← sum lexemes (roomFor lexemes.length)
  match ← peek lexemes with
  | .endOfInput => return tree
  | _ => refuse lexemes

/-- The state before the first lexeme, with no level in use. -/
def State.start : State := ⟨⟨0, 0⟩, []⟩

/-- A run of the parser over the lexemes. -/
def parse : Except Halt Expr × State := whole lexemes .start

end Calculator.Expr.Cursor
