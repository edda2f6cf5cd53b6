import Calculator.Decimal.Basic
import Calculator.Style
import Calculator.Text.Blank

/-!
# Events

An event has a level, a target that says which part of the program it comes from, a message and
fields. Its line in the log shows the level, the message and the fields. Levels are read, and
messages and fields are written, as in tracing-subscriber.
-/

namespace Calculator.Log

/-- The level of an event. -/
inductive Level where
  | error
  | warn
  | info
  | debug
  | trace
  deriving DecidableEq, Repr

namespace Level

/-- How detailed a level is. -/
def rank : Level → Nat
  | error => 1
  | warn => 2
  | info => 3
  | debug => 4
  | trace => 5

/-- The rank that a text names, by the name of a level or by number; 0 is below all levels. -/
def rank? (text : String) : Option Nat :=
  match Text.asciiLower text with
  | "off" => some 0
  | "error" => some 1
  | "warn" => some 2
  | "info" => some 3
  | "debug" => some 4
  | "trace" => some 5
  | word =>
    let digits := match word.toList with
      | '+' :: digits => digits
      | digits => digits
    if digits.isEmpty || !digits.all Char.isDigit then none
    else if ofNumeral digits ≤ 5 then some (ofNumeral digits)
    else none

/-- The name of a level in log lines. -/
def name : Level → String
  | error => "ERROR"
  | warn => "WARN"
  | info => "INFO"
  | debug => "DEBUG"
  | trace => "TRACE"

/-- The colour of a level in log lines. -/
def ink : Level → Ink
  | error => .red
  | warn => .yellow
  | info => .green
  | debug => .blue
  | trace => .magenta

end Level

/-- Something that is worth a line in the log. -/
structure Event where
  /-- How detailed it is. -/
  level : Level
  /-- The part of the program that it comes from. -/
  target : String
  /-- What happened. -/
  message : String
  /-- Names and values of what is known about it. -/
  fields : List (String × String) := []
  /-- The names of what else is known about it and not shown. -/
  hidden : List String := []
  deriving DecidableEq

/-- The names of all that an event says, its message among them. -/
def Event.names (event : Event) : List String :=
  "message" :: (event.fields.map Prod.fst ++ event.hidden)

/-- A message with the control characters made visible that a terminal would act on. -/
def visible (message : String) : String :=
  String.ofList (message.toList.flatMap fun c =>
    let n := c.toNat
    if n = 0x1B then "\\x1b".toList
    else if n = 0x07 then "\\x07".toList
    else if n = 0x08 then "\\x08".toList
    else if n = 0x0C then "\\x0c".toList
    else if n = 0x7F then "\\x7f".toList
    else if 0x80 ≤ n ∧ n ≤ 0x9F then
      "\\u\x7b".toList ++ Nat.toDigits 16 n ++ ['\x7d']
    else [c])

/-- The line of an event after its time. With `marks` the names of fields are set off, and with
`color` the level has a colour. -/
def Event.line (event : Event) (marks color : Bool) : String :=
  let label := event.level.ink.paint color ("[" ++ event.level.name ++ "]")
  let field := fun (name, value) =>
    " " ++ Ink.italic.paint marks name ++ Ink.dimmed.paint marks "=" ++ value
  label ++ " " ++ visible event.message ++ String.join (event.fields.map field)

end Calculator.Log
