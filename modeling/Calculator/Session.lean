import Calculator.Style
import Calculator.Text.Bytes
import Calculator.Text.Cluster
import Calculator.Tool

/-!
# Interactive sessions

A session reads lines. Commands begin with a colon; of these the ones for the angle unit change what
the following lines mean. Every other line is an expression, which is answered with its value or
with what is wrong with it. A session ends with a command to quit or with its input.

The lines are read as rustyline reads them from an input that is no terminal: it applies the
backspaces of a line before it hands the line on. It keeps the size of what a backspace takes back
in one byte, and cuts the line by that size. Where such a cut would fall inside a character, the
program stops, and the session breaks off without an end.
-/

namespace Calculator.Session

/-- What a line leads to. -/
structure Step where
  /-- Whether the session ends. -/
  quits : Bool
  /-- What is printed. -/
  output : Option String
  /-- The engine from then on. -/
  engine : Engine

/-- The unit of an engine as prompts show it. -/
def shortUnit : AngleUnit → String
  | .degrees => "deg"
  | .radians => "rad"

/-- What the command for help prints. -/
def help : String :=
  "\n".intercalate [
    "Enter an expression to evaluate, e.g. 2 + 3 * 4, sqrt(16), sin(30)",
    "",
    "Commands:",
    "  :deg    use degrees for trigonometry",
    "  :rad    use radians for trigonometry",
    "  :help   show this help",
    "  :quit   leave the REPL",
    "",
    "Functions: " ++ ", ".intercalate (Builtin.sorted.map Builtin.name),
    "Constants: " ++ ", ".intercalate (Constant.all.map Constant.name)]

/-- The answer to an expression. -/
def answer (config : Config) (color : Bool) (engine : Engine) (line : String) : String :=
  match (do engine.evaluate (← accept config line)) with
  | .ok x => "= " ++ x.format config.precision
  | .error failure => Ink.red.paint color "Error:" ++ " " ++ Tool.complaint failure

/-- What a line leads to. Commands are recognised as they stand, without trimming. -/
def execute (config : Config) (color : Bool) (engine : Engine) (line : String) : Step :=
  if line ∈ [":quit", ":q", ":exit"] then ⟨true, none, engine⟩
  else if line = ":deg" then ⟨false, some "Angle unit: degrees", ⟨.degrees⟩⟩
  else if line = ":rad" then ⟨false, some "Angle unit: radians", ⟨.radians⟩⟩
  else if line ∈ [":help", ":?"] then ⟨false, some help, engine⟩
  else if line.toList.head? = some ':' then
    ⟨false, some ("Unknown command '" ++ Ink.red.paint color line ++ "'. Type '"
      ++ Ink.brightYellow.paint color ":help" ++ "' for available commands."), engine⟩
  else ⟨false, some (answer config color engine line), engine⟩

/-- A line as it is typed. -/
structure Typed where
  /-- The characters so far, the last one first. -/
  chars : List Char := []
  /-- The sizes of what backspaces can take back, the last one first. -/
  sizes : List Nat := []

namespace Typed

/-- Types a cluster of characters. A backspace takes back as many bytes as the cluster before it is
said to have, if the line can be cut there; that size is kept in a byte of its own, so of a larger
one only the remainder by 256 counts. -/
def enter? (typed : Typed) (cluster : List Char) : Option Typed :=
  if cluster = ['\x08'] then
    match typed.sizes with
    | [] => some typed
    | size :: others => do
      -- The characters are in reverse order, and so is the part that is taken back.
      let (_, kept) ← Text.cut? size typed.chars
      return ⟨kept, others⟩
  else some ⟨cluster.reverse ++ typed.chars, Text.byteLength cluster % 256 :: typed.sizes⟩

end Typed

/-- A text without the clusters that a backspace after them takes back, if it can be read. -/
def applyBackspaces? (chars : List Char) : Option (List Char) := do
  let typed ← (Text.clusters chars).foldlM Typed.enter? {}
  return typed.chars.reverse

/-- The lines of an input, without the line break at the end of each. -/
def linesOf (input : List Char) : List (List Char) :=
  match input with
  | [] => []
  | '\n' :: rest => [] :: linesOf rest
  | c :: rest =>
    match linesOf rest with
    | [] => [[c]]
    | line :: others => (c :: line) :: others

/-- What is read of an input. -/
structure Input where
  /-- The lines in order, up to one that cannot be read. -/
  lines : List String
  /-- Whether there is such a line after them, at which the program stops. -/
  breaksOff : Bool

/-- Reads lines in order. -/
def Input.ofLines : List (List Char) → Input
  | [] => ⟨[], false⟩
  | line :: others =>
    match applyBackspaces? line with
    | none => ⟨[], true⟩
    | some chars =>
      let rest := ofLines others
      ⟨String.ofList chars :: rest.lines, rest.breaksOff⟩

/-- What is read of a text. -/
def Input.ofText (input : String) : Input := ofLines (linesOf input.toList)

/-- The lines of an input as they are read. -/
def inputLines (input : String) : List String := (Input.ofText input).lines

/-- The lines of an input that a session looks at: trimmed, and not empty. -/
def usedLines (input : String) : List String :=
  ((inputLines input).map Text.trim).filter (· ≠ "")

/-- The lines that a session answers, each with its step, up to the first one that ends it. -/
def steps (config : Config) (color : Bool) (engine : Engine) : List String → List Step
  | [] => []
  | line :: others =>
    let step := execute config color engine line
    if step.quits then [step] else step :: steps config color step.engine others

/-- What is printed before the first line is read. -/
def banner (color : Bool) : String :=
  Ink.boldBrightCyan.paint color "Tally calculator" ++ "\nType '"
    ++ Ink.brightYellow.paint color ":help" ++ "' for commands, "
    ++ Ink.brightCyan.paint color "Tab" ++ " for completion\n\n"

/-- What is printed at the end. -/
def farewell : String := "Bye!\n"

/-- The steps of a session for an input. -/
def stepsFor (config : Config) (color : Bool) (input : String) : List Step :=
  steps config color ⟨config.angleUnit⟩ (usedLines input)

/-- Whether a session for an input breaks off: no line ends it before one that cannot be read. -/
def breaksOff (config : Config) (color : Bool) (input : String) : Bool :=
  (Input.ofText input).breaksOff && !(stepsFor config color input).any Step.quits

/-- All that a session prints for an input. One that breaks off has no end. -/
def transcript (config : Config) (color : Bool) (input : String) : String :=
  let outputs := (stepsFor config color input).filterMap fun step => step.output.map (· ++ "\n")
  banner color ++ String.join outputs ++ if breaksOff config color input then "" else farewell

end Calculator.Session
