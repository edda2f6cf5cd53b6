import Calculator.Decimal.Reading
import Calculator.Log
import Calculator.Log.Pattern
import Calculator.Text.Bytes
import Calculator.Text.Letter

/-!
# Directives of filters

How tracing-subscriber reads the directives of a filter. A directive is written
`target[span{field=value}]=level`, where each part can be missing. It says down to which level
events are logged whose target begins with the given one and that have the given field. A single
word is a level if it names one and else a target; without a level all levels are meant. A directive
that asks for a span, or for the value of a field, is about spans.

White space around a directive is skipped where its marks are looked for. The parts are cut out of
the text as it stands, at the byte offsets that the marks have without the white space: after white
space at the beginning they lie that much too far ahead. Such an offset can lie inside a character,
as in a space and `é=info`, and then the program stops (`Fault.split`).
-/

namespace Calculator.Log

/-- What a directive asks of a field. -/
structure FieldCondition where
  /-- The name of the field. -/
  name : String
  /-- Whether it asks for a value, too. -/
  valued : Bool
  deriving DecidableEq

/-- The condition that a text between braces spells. What follows a second equals sign does not
count. -/
def FieldCondition.parse? (text : List Char) : Option FieldCondition :=
  let name := String.ofList (text.takeWhile (· != '='))
  match text.dropWhile (· != '=') with
  | [] => if text.isEmpty then none else some ⟨name, false⟩
  | _ :: rest =>
    let value := rest.takeWhile (· != '=')
    if (Binary64.ofChars? value).isSome || Pattern.isWellFormed value then some ⟨name, true⟩
    else none

/-- A part of a filter. -/
structure Directive where
  /-- What the targets begin with to which it applies; all of them if there is none. -/
  target : Option String
  /-- The name of the span that it asks for. -/
  span : Option String
  /-- What it asks of a field. -/
  field : Option FieldCondition
  /-- The rank of the most detailed level that is logged, or 0. -/
  rank : Nat
  deriving DecidableEq

namespace Directive

/-- Why a text gives no directive. -/
inductive Fault where
  /-- It does not spell one. -/
  | malformed
  /-- A part of it would begin or end inside a character. -/
  | split
  deriving DecidableEq

/-- What there has to be. -/
def need {α : Type} (fault : Fault) : Option α → Except Fault α
  | some a => .ok a
  | none => .error fault

/-- The part of a text between two byte offsets. -/
def part (text : List Char) (start stop : Nat) : Except Fault (List Char) :=
  need .split (Text.slice? text start stop)

/-- The rank after an equals sign; nothing there means every level. -/
def assignedRank (level : List Char) : Except Fault Nat :=
  if level.isEmpty then .ok Level.trace.rank
  else need .malformed (Level.rank? (String.ofList level))

/-- The rank that the end of a directive gives: nothing, or an equals sign and a level. The end has
the byte offset `offset`. -/
def finalRank (text : List Char) (offset : Nat) : List Char → Except Fault Nat
  | [] => .ok Level.trace.rank
  | '=' :: _ => do assignedRank (← part text (offset + 1) (Text.byteLength text))
  | _ => .error .malformed

/-- Whether a character ends the name of a span. -/
def endsSpan (c : Char) : Bool := c == ']' || c == '\x7b'

/-- The directive with a target and, from the byte offset `offset` on, what an opening bracket
begins: the name of a span, perhaps a field in braces, a closing bracket and the end. -/
def ofBrackets (text : List Char) (target : Option String) (offset : Nat) (inner : List Char) :
    Except Fault Directive :=
  let name := inner.takeWhile fun c => !endsSpan c
  let stop := offset + Text.byteLength name
  match inner.dropWhile fun c => !endsSpan c with
  | [] => .error .malformed
  | mark :: rest => do
    let span := String.ofList (← part text offset stop)
    if mark = ']' then return ⟨target, some span, none, ← finalRank text (stop + 1) rest⟩
    else
      let field := rest.takeWhile (· != '\x7d')
      let last := stop + 1 + Text.byteLength field
      match rest.dropWhile (· != '\x7d') with
      | [] => .error .malformed
      | _ :: after =>
        let condition ← need .malformed (FieldCondition.parse? (← part text (stop + 1) last))
        match after with
        | ']' :: rest =>
          let rank ← finalRank text (last + 2) rest
          return ⟨target, if name.isEmpty then none else some span, some condition, rank⟩
        | _ => .error .malformed

/-- Whether a character can begin a directive without brackets. -/
def isInitial (c : Char) : Bool := Text.isLetterOrNumber c || c ∈ ['-', ':', '_']

/-- Whether a character ends the word that a directive begins with. -/
def endsWord (c : Char) : Bool := c == '=' || c == '['

/-- The directive that a text spells. -/
def parse (text : List Char) : Except Fault Directive :=
  match Text.trimChars text with
  | [] => .error .malformed
  | '[' :: inner => ofBrackets text none 1 inner
  | first :: rest =>
    if !isInitial first then .error .malformed
    else
      let word := first :: rest.takeWhile fun c => !endsWord c
      let stop := Text.byteLength word
      match rest.dropWhile fun c => !endsWord c with
      | [] =>
        let whole := String.ofList text
        match Level.rank? whole with
        | some rank => .ok ⟨none, none, none, rank⟩
        | none => .ok ⟨whole, none, none, Level.trace.rank⟩
      | mark :: inner => do
        let target := String.ofList (← part text 0 stop)
        if mark = '=' then
          let level ← part text (stop + 1) (Text.byteLength text)
          return ⟨target, none, none, ← assignedRank level⟩
        else ofBrackets text target (stop + 1) inner

end Directive

end Calculator.Log
