import Calculator.CommandLine.Run
import Std.Time.Zoned

/-!
# The program

Reads what surrounds the program, lets `CommandLine.run` say what a command line leads to, and
prints that. A session on a terminal is answered line by line.
-/

namespace Calculator.Program

open CommandLine

/-- The contents of a file, if there is one. Bytes that are no text stand for a text that no
configuration file can hold. -/
def contents? (path : String) : IO (Option String) := do
  try
    let bytes ← IO.FS.readBinFile path
    return some ((String.fromUTF8? bytes).getD "\uFFFD")
  catch _ => return none

/-- Whether a path names a directory. -/
def isDirectory (path : String) : IO Bool := do
  ((← IO.currentDir) / path).isDir

/-- The configuration file: the named one, or else the default one in the working directory or in
the closest directory above it that has one. A directory stands for a file without settings. -/
def configurationFile (named : Option String) : IO Files := do
  match named with
  | some path =>
    match ← contents? path with
    | some text => return [(path, text)]
    | none => return if ← isDirectory path then [(path, "")] else []
  | none =>
    let depth := (toString (← IO.currentDir)).length
    let mut path := Config.defaultFile
    for _ in List.range (depth + 1) do
      if let some text ← contents? path then return [(Config.defaultFile, text)]
      path := "../" ++ path
    return []

/-- The variables of the environment. Where they cannot be listed, the ones with the usual names. -/
def environment : IO (List (String × String)) := do
  match ← contents? "/proc/self/environ" with
  | some text =>
    return (text.splitOn "\x00").filterMap fun entry =>
      match entry.splitOn "=" with
      | name :: first :: others => some (name, "=".intercalate (first :: others))
      | _ => none
  | none =>
    let keys := [Config.angleUnitKey, Config.precisionKey, Config.maxInputLengthKey,
      Config.logLevelKey]
    let names := ["RUST_LOG", "NO_COLOR", "CLICOLOR", "CLICOLOR_FORCE"]
      ++ keys.map fun key => Config.variablePrefix ++ key.toUpper
    names.filterMapM fun name => do return (← IO.getEnv name).map fun value => (name, value)

/-- All that is left of an input. -/
partial def readAll (input : IO.FS.Stream) (before : String) : IO String := do
  let line ← input.getLine
  if line.isEmpty then return before else readAll input (before ++ line)

/-- The time of day as log lines show it. -/
def clockTime : IO String := do
  let time ← Std.Time.PlainTime.now
  let pad := fun (width : Nat) (n : Int) =>
    let digits := toString n
    String.ofList (List.replicate (width - digits.length) '0') ++ digits
  return ":".intercalate [pad 2 time.hour.val, pad 2 time.minute.val, pad 2 time.second.val]
    ++ "." ++ pad 3 (time.nanosecond.val / 1000000)

/-- Prints lines of the error output. -/
def report (reports : List Report) : IO Unit := do
  for entry in reports do
    match entry with
    | .logged line => IO.eprintln ((← clockTime) ++ " " ++ line)
    | .plain line => IO.eprintln line

/-- Answers the lines of a terminal until one of them ends the session. -/
partial def converse (s : Surroundings) (invocation : Invocation) (filter : Log.Filter)
    (config : Config) (engine : Engine) : IO Unit := do
  let output ← IO.getStdout
  output.putStr s!"tally[{Session.shortUnit engine.unit}]> "
  output.flush
  let line ← (← IO.getStdin).getLine
  if line.isEmpty then return
  let used := Text.trim line
  if used = "" then converse s invocation filter config engine
  else
    report (logLines s invocation filter (lineEvents config engine used))
    let step := Session.execute config (s.colors invocation.noColor) engine used
    if let some text := step.output then output.putStrLn text
    if !step.quits then converse s invocation filter config step.engine

/-- Holds a session on a terminal. -/
def converseOnTerminal (s : Surroundings) (invocation : Invocation) : IO UInt32 := do
  match Config.load s.files invocation.configFile s.environment with
  | .error _ =>
    report (runInvocation s invocation).reports
    return 1
  | .ok config =>
    match s.logFilter? invocation.verbose config with
    | none => return stopStatus.toUInt32
    | some filter =>
      IO.print (Session.banner (s.colors invocation.noColor))
      converse s invocation filter config ⟨config.angleUnit⟩
      IO.print Session.farewell
      return 0

end Calculator.Program

open Calculator Calculator.CommandLine in
/-- Runs the program. -/
def main (arguments : List String) : IO UInt32 := do
  let parsed := parse arguments
  let invocation? := parsed.toOption
  let input ← IO.getStdin
  let talks := invocation?.any fun i => i.command matches .repl
  let reads := invocation?.any fun i => i.command matches .repl | .tool none false
  let surroundings : Surroundings := {
    input := ""
    files := ← Program.configurationFile (invocation?.bind Invocation.configFile)
    environment := ← Program.environment
    terminal := ← (← IO.getStdout).isTty }
  if let some invocation := invocation? then
    if talks && (← input.isTty) then
      return ← Program.converseOnTerminal surroundings invocation
  let text ← if reads then Program.readAll input "" else pure ""
  let outcome := run { surroundings with input := text } arguments
  Program.report outcome.reports
  IO.print outcome.output
  return outcome.status.toUInt32
