import Calculator.CommandLine.Arguments
import Calculator.Config.Layers
import Calculator.Log.Events
import Calculator.Log.Filter
import Calculator.Session
import Calculator.Statistics

/-!
# Running a command line

What a command line prints, logs and returns is a function of its arguments and of what surrounds
the program: its input, the files of the working directory and the environment. Failures go to the
error output and make the status 1; errors in usage make it 2. The program can also stop while the
filter of the log or a line of a session is read, where a text would be cut inside a character.

Of what clap, anyhow and a program that stops write themselves only a part is here; each definition
says what it leaves out.
-/

namespace Calculator.CommandLine

/-- What surrounds a run of the program. -/
structure Surroundings where
  /-- The standard input. An input that is not encoded as text cannot be represented. -/
  input : String
  /-- The files of the working directory. -/
  files : Files
  /-- The environment variables. -/
  environment : List (String × String)
  /-- Whether the output goes to a terminal. -/
  terminal : Bool := false

/-- A line of the error output. -/
inductive Report where
  /-- A line of the log, before which the time is put. -/
  | logged (line : String)
  /-- A line as it stands. -/
  | plain (line : String)
  deriving DecidableEq

/-- What a run leads to. -/
structure Outcome where
  /-- The exit status. -/
  status : Nat
  /-- The standard output. -/
  output : String := ""
  /-- The error output. -/
  reports : List Report := []
  deriving DecidableEq

/-- The exit status of a program that stops, if it is built to unwind. If it is built to abort, a
signal ends it. -/
def stopStatus : Nat := 101

namespace Surroundings

/-- The value of an environment variable. -/
def get? (s : Surroundings) (name : String) : Option String :=
  (s.environment.find? fun entry => entry.1 = name).map Prod.snd

/-- Whether colours are on: they can be forced, switched off, or else follow the terminal. -/
def colors (s : Surroundings) (noColor : Bool) : Bool :=
  if noColor then false
  else if (s.get? "CLICOLOR_FORCE").any (· ≠ "0") then true
  else if (s.get? "NO_COLOR").isSome then false
  else (s.get? "CLICOLOR").all (· ≠ "0") && s.terminal

/-- The text of the filter of the log: the variable for it, or the option, or the configured one. -/
def logText (s : Surroundings) (verbose : Bool) (config : Config) : String :=
  match s.get? "RUST_LOG" with
  | some text => if text = "" then byOption else text
  | none => byOption
where
  byOption : String := if verbose then "debug" else config.logLevel

/-- The filter of the log, unless the program stops at its text. -/
def logFilter? (s : Surroundings) (verbose : Bool) (config : Config) : Option Log.Filter :=
  Log.Filter.ofText? (s.logText verbose config)

end Surroundings

/-- The lines that list functions and constants. -/
def functionList (color : Bool) : String :=
  let heading := fun text => Ink.boldBrightCyan.paint color text ++ "\n"
  let row := fun (name text : String) =>
    "  " ++ Ink.brightYellow.paint color (padRight 8 name) ++ " " ++ text ++ "\n"
  heading "Functions"
    ++ String.join (Builtin.sorted.map fun f => row (f.name ++ "(x)") f.description)
    ++ "\n" ++ heading "Constants"
    ++ String.join (Constant.all.map fun c => row c.name c.value.text)

/-- The lines that describe numbers. -/
def statisticsList (values : List Binary64) (precision : Nat) : String :=
  let row := fun (label : String) (x : Binary64) =>
    padRight 8 label ++ " " ++ x.format precision ++ "\n"
  row "count" (.ofNat values.length) ++ row "mean" (Statistics.mean values)
    ++ row "median" (Statistics.median values)
    ++ row "std_dev" (Statistics.standardDeviation values)

/-- What a command leads to: its outcome, in which the events are yet to be logged. -/
structure Execution where
  /-- What happened. -/
  events : List Log.Event := []
  /-- The outcome apart from the log. -/
  outcome : Outcome

/-- A failure of an expression. -/
def failed (color : Bool) (failure : Failure) : Outcome :=
  { status := 1, reports := [.plain (Ink.red.paint color "Error:" ++ " " ++ failure.message)] }

/-- What evaluating an expression leads to. -/
def runEval (config : Config) (color : Bool) (text : String) (unit : AngleUnit) : Execution :=
  { events := Log.inputEvaluation config text unit
    outcome :=
      match (do evaluateText (← accept config text) unit) with
      | .ok x => { status := 0, output := x.format config.precision ++ "\n" }
      | .error failure => failed color failure }

/-- What checking an expression leads to. -/
def runCheck (config : Config) (color : Bool) (text : String) : Execution :=
  { outcome :=
      match (do
        let expression ← accept config text
        validateText expression
        return expression) with
      | .ok expression =>
        { status := 0, output := Ink.green.paint color "[OK]" ++ " " ++ expression ++ "\n" }
      | .error failure => failed color failure }

/-- What calling the tool leads to. Of the report of arguments that cannot be read only the first
line is here, without their cause. -/
def runTool (config : Config) (text : String) : Execution :=
  match ToolArguments.ofText? text with
  | some arguments =>
    { events := Log.toolCall config arguments
      outcome := { status := 0, output := Tool.call config arguments ++ "\n" } }
  | none =>
    { outcome := { status := 1, reports := [.plain ("Error: " ++ Tool.invalidArguments)] } }

/-- The events of what a user types in a session, apart from reading it. Commands are not logged. -/
def lineEvents (config : Config) (engine : Engine) (line : String) : List Log.Event :=
  let used := Text.trim line
  if used = "" ∨ used.toList.head? = some ':' then []
  else Log.inputEvaluation config used engine.unit

/-- The events of the lines of a session. Reading goes on to the end of the input, or to a line that
cannot be read, unless a line ends the session before. -/
def sessionEvents (config : Config) (engine : Engine) : List String → List Log.Event
  | [] => [Log.lineRead]
  | line :: others =>
    let used := Text.trim line
    let rest :=
      if used = "" then sessionEvents config engine others
      else
        let step := Session.execute config false engine used
        if step.quits then [] else sessionEvents config step.engine others
    Log.lineRead :: (lineEvents config engine line ++ rest)

/-- What a session leads to. The prompt is left out that is printed where the terminal is said to be
a dumb one; and of one that breaks off, the report of that, which names a place in rustyline. -/
def runSession (config : Config) (color : Bool) (input : String) : Execution :=
  { events := sessionEvents config ⟨config.angleUnit⟩ (Session.inputLines input)
    outcome :=
      { status := if Session.breaksOff config color input then stopStatus else 0
        output := Session.transcript config color input } }

/-- What a command leads to. -/
def execute (config : Config) (color : Bool) (input : String) : Command → Execution
  | .eval text unit => runEval config color text (unit.getD config.angleUnit)
  | .check text => runCheck config color text
  | .tool _ true => { outcome := { status := 0, output := Tool.definition.pretty ++ "\n" } }
  | .tool arguments false => runTool config (arguments.getD input)
  | .repl => runSession config color input
  | .functions => { outcome := { status := 0, output := functionList color } }
  | .stats values =>
    { outcome := { status := 0, output := statisticsList values config.precision } }
  | .config => { outcome := { status := 0, output := config.yaml } }

/-- The events that a filter lets through, as lines. -/
def logLines (s : Surroundings) (invocation : Invocation) (filter : Log.Filter)
    (events : List Log.Event) : List Report :=
  let color := s.colors invocation.noColor
  (events.filter filter.allows).map fun event => .logged (event.line (!invocation.noColor) color)

/-- What a command leads to, with the log before its own reports. Nothing is printed before the
filter of the log is read. Of the report of a configuration that cannot be loaded only the first
line is here, without its cause; and of a program that stops at the filter, no report, since it
names a place in tracing-subscriber. -/
def runInvocation (s : Surroundings) (invocation : Invocation) : Outcome :=
  match Config.load s.files invocation.configFile s.environment with
  | .error failure => { status := 1, reports := [.plain ("Error: " ++ failure.message)] }
  | .ok config =>
    match s.logFilter? invocation.verbose config with
    | none => { status := stopStatus }
    | some filter =>
      let execution := execute config (s.colors invocation.noColor) s.input invocation.command
      let loaded := Log.configLoaded (invocation.configFile.getD Config.defaultFile) config
      { execution.outcome with
        reports := logLines s invocation filter (loaded :: execution.events)
          ++ execution.outcome.reports }

/-- What the program says of itself when it is asked how it is used. -/
def about : String :=
  "\n".intercalate [
    "Tally - expression calculator",
    "",
    "Commands:",
    "  eval        Evaluate an expression",
    "  check       Validate an expression without evaluating it",
    "  tool        Run the calculator tool on JSON arguments",
    "  repl        Start an interactive session",
    "  functions   List supported functions and constants",
    "  stats       Descriptive statistics for a list of numbers",
    "  config      Show the effective configuration",
    "",
    "Examples:",
    "  tally eval '2 + 3 * 4'                     # 14",
    "  tally eval 'sin(pi/2)' --angle-unit rad    # 1",
    "  tally tool '\x7b\"expression\": \"sqrt(16)\"\x7d'",
    "  tally stats 2 4 4 4 5 5 7 9"]

/-- What a command line leads to. What clap writes is left out: the whole report of an error in
usage; the lists of commands and options that it adds to the help of the program; and the help of a
single command, and the short one, which it writes in place of this. -/
def run (s : Surroundings) (arguments : List String) : Outcome :=
  match parse arguments with
  | .ok invocation => runInvocation s invocation
  | .error .usage => { status := 2 }
  | .error .help => { status := 0, output := about ++ "\n" }
  | .error .version => { status := 0, output := "tally 0.1.0\n" }

end Calculator.CommandLine
