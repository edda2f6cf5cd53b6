import Calculator.Angle
import Calculator.Decimal.Reading

/-!
# Command-line arguments

How clap reads arguments. A command line names a command, with options before it that hold for every
command and arguments after it. Options have a long name, and some a short one of one letter. Short
options can be written together; the value of an option stands after it, or after an equals sign, or
directly after a short name. Two hyphens end the options. Whatever does not fit is an error in
usage.
-/

namespace Calculator.CommandLine

/-- Options without a value. -/
inductive Switch where
  | verbose
  | noColor
  | describe
  | help
  | version
  deriving DecidableEq, Repr

/-- Options with a value. -/
inductive Setting where
  | config
  | angleUnit
  deriving DecidableEq, Repr

/-- What an option is. -/
inductive OptionKind where
  | switch (s : Switch)
  | setting (s : Setting)
  deriving DecidableEq, Repr

/-- An option with its names. -/
structure OptionName where
  /-- The name after two hyphens. -/
  long : String
  /-- The name after one hyphen. -/
  short : Option Char
  /-- What it is. -/
  kind : OptionKind

/-- What the arguments at one place may be. -/
structure Grammar where
  /-- The options that are known. -/
  options : List OptionName
  /-- The most arguments that are no options, if there is a bound. -/
  most : Option Nat
  /-- Whether the arguments that are no options are numbers. A negative one is no option then. -/
  numbers : Bool := false
  /-- Whether the first argument that is no option ends the list. -/
  stopsAtFirst : Bool := false

/-- Why there is nothing to run. -/
inductive Stop where
  /-- The arguments do not fit. -/
  | usage
  /-- The user asks how the program is used. -/
  | help
  /-- The user asks for the version of the program. -/
  | version
  deriving DecidableEq

/-- What has been read. -/
structure Reading where
  /-- The options without a value. -/
  switches : List Switch := []
  /-- The options with their values. -/
  settings : List (Setting × String) := []
  /-- The other arguments, in order. -/
  others : List String := []
  /-- The arguments that have not been looked at. -/
  rest : List String := []

namespace Reading

/-- Notes a switch, which may come once. -/
def addSwitch (r : Reading) (s : Switch) : Except Stop Reading :=
  match s with
  | .help => .error .help
  | .version => .error .version
  | s => if s ∈ r.switches then .error .usage else .ok { r with switches := s :: r.switches }

/-- Notes the value of a setting, which may come once. -/
def addSetting (r : Reading) (s : Setting) (value : String) : Except Stop Reading :=
  if r.settings.any (fun entry => entry.1 == s) || value == "" then .error .usage
  else match s with
    | .config => .ok { r with settings := (s, value) :: r.settings }
    | .angleUnit =>
      match AngleUnit.read value with
      | .ok _ => .ok { r with settings := (s, value) :: r.settings }
      | .error _ => .error .usage

/-- Notes another argument, if there may be one more and it is a number where it has to be. -/
def addOther (g : Grammar) (r : Reading) (argument : String) : Except Stop Reading :=
  if g.most.all (r.others.length < ·) && (!g.numbers || (Binary64.ofText? argument).isSome) then
    .ok { r with others := r.others ++ [argument] }
  else .error .usage

/-- The value of a setting. -/
def setting? (r : Reading) (s : Setting) : Option String :=
  (r.settings.find? fun entry => entry.1 == s).map Prod.snd

end Reading

/-- Whether the characters after a hyphen are a number: digits with at most one point, which is not
the first character, and perhaps an `e` with digits after it. -/
def isNumber (chars : List Char) : Bool :=
  let mantissa := chars.takeWhile (· != 'e')
  let exponent := chars.dropWhile (· != 'e')
  let points := mantissa.filter (· == '.')
  mantissa.all isNumeralChar && points.length ≤ 1 && mantissa.head? != some '.'
    && match exponent with
      | [] => true
      | _ :: digits => !mantissa.isEmpty && !digits.isEmpty && digits.all Char.isDigit

/-- Whether an argument can be the value of the option before it. -/
def isValue (argument : String) : Bool :=
  match argument.toList with
  | '-' :: _ :: _ => false
  | _ => true

/-- Reads a setting whose value is not part of the same argument. -/
def readValue (r : Reading) (s : Setting) (rest : List String) :
    Except Stop (Reading × List String) :=
  match rest with
  | value :: rest => if isValue value then do return (← r.addSetting s value, rest)
    else .error .usage
  | [] => .error .usage

/-- Reads an option by its long name, after the hyphens. -/
def readLong (g : Grammar) (r : Reading) (text : String) (rest : List String) :
    Except Stop (Reading × List String) :=
  let name := String.ofList (text.toList.takeWhile (· != '='))
  let value := text.toList.dropWhile (· != '=')
  match g.options.find? fun o => o.long = name with
  | none => .error .usage
  | some option =>
    match option.kind, value with
    | .switch s, [] => do return (← r.addSwitch s, rest)
    | .switch _, _ => .error .usage
    | .setting s, [] => readValue r s rest
    | .setting s, _ :: value => do return (← r.addSetting s (String.ofList value), rest)

/-- Reads options by their short names, after the hyphen. -/
def readShort (g : Grammar) (r : Reading) (rest : List String) :
    List Char → Except Stop (Reading × List String)
  | [] => .ok (r, rest)
  | c :: letters =>
    match g.options.find? fun o => o.short = some c with
    | none => .error .usage
    | some option =>
      match option.kind with
      | .switch s => do readShort g (← r.addSwitch s) rest letters
      | .setting s =>
        match letters with
        | [] => readValue r s rest
        | '=' :: value => do return (← r.addSetting s (String.ofList value), rest)
        | value => do return (← r.addSetting s (String.ofList value), rest)

/-- Reads the arguments at one place. The number bounds the steps; each takes an argument at
least. -/
def read (g : Grammar) : Nat → Reading → List String → Except Stop Reading
  | 0, r, rest => .ok { r with rest }
  | _, r, [] => .ok r
  | fuel + 1, r, argument :: rest =>
    match argument.toList with
    | ['-', '-'] =>
      if g.stopsAtFirst then .error .usage else rest.foldlM (Reading.addOther g) r
    | '-' :: '-' :: text => do
      let (r, rest) ← readLong g r (String.ofList text) rest
      read g fuel r rest
    | '-' :: c :: letters =>
      if g.numbers && isNumber (c :: letters) then do
        read g fuel (← r.addOther g argument) rest
      else do
        let (r, rest) ← readShort g r rest (c :: letters)
        read g fuel r rest
    | _ => do
      let r ← r.addOther g argument
      if g.stopsAtFirst then return { r with rest } else read g fuel r rest

/-- What the program is to do. -/
inductive Command where
  /-- Evaluate an expression, in the unit if one is given. -/
  | eval (expression : String) (unit : Option AngleUnit)
  /-- Check an expression. -/
  | check (expression : String)
  /-- Call the tool with the arguments, or with what the input holds, or describe it. -/
  | tool (arguments : Option String) (describe : Bool)
  /-- Hold an interactive session. -/
  | repl
  /-- List functions and constants. -/
  | functions
  /-- Describe numbers. -/
  | stats (values : List Binary64)
  /-- Show the configuration. -/
  | config

/-- A command with the options that hold for every command. -/
structure Invocation where
  /-- Whether to log more. -/
  verbose : Bool
  /-- Whether to do without colours. -/
  noColor : Bool
  /-- The configuration file that is named. -/
  configFile : Option String
  /-- What to do. -/
  command : Command

/-- The options that every command knows. -/
def globalOptions : List OptionName := [
  ⟨"verbose", some 'v', .switch .verbose⟩,
  ⟨"no-color", none, .switch .noColor⟩,
  ⟨"config", some 'c', .setting .config⟩,
  ⟨"help", some 'h', .switch .help⟩]

/-- The arguments before the command. -/
def programGrammar : Grammar :=
  ⟨globalOptions ++ [⟨"version", some 'V', .switch .version⟩], none, false, true⟩

/-- The arguments of the command with the given name. -/
def commandGrammar? : String → Option Grammar
  | "eval" =>
    some ⟨globalOptions ++ [⟨"angle-unit", some 'u', .setting .angleUnit⟩], some 1, false, false⟩
  | "check" => some ⟨globalOptions, some 1, false, false⟩
  | "tool" => some ⟨globalOptions ++ [⟨"describe", none, .switch .describe⟩], some 1, false, false⟩
  | "repl" | "functions" | "config" => some ⟨globalOptions, some 0, false, false⟩
  | "stats" => some ⟨globalOptions, none, true, false⟩
  | _ => none

/-- The command that tells how the program and its commands are used. -/
def helpCommand : String := "help"

/-- The command with the given name and arguments. -/
def command? (name : String) (r : Reading) : Option Command :=
  match name, r.others with
  | "eval", [expression] =>
    let unit := (r.setting? .angleUnit).bind fun text => (AngleUnit.read text).toOption
    some (.eval expression unit)
  | "check", [expression] => some (.check expression)
  | "tool", arguments => some (.tool arguments.head? (r.switches.contains .describe))
  | "repl", [] => some .repl
  | "functions", [] => some .functions
  | "config", [] => some .config
  | "stats", first :: others => (.stats <$> (first :: others).mapM Binary64.ofText?)
  | _, _ => none

/-- What asking for help on the named commands leads to. -/
def helpOn : List String → Stop
  | [] => .help
  | [name] => if name = helpCommand ∨ (commandGrammar? name).isSome then .help else .usage
  | _ => .usage

/-- What a command line asks for. An option that holds for every command counts as it is given after
the command, if it is given at both places. -/
def parse (arguments : List String) : Except Stop Invocation := do
  let before ← read programGrammar arguments.length {} arguments
  match before.others with
  | [] => .error .usage
  | name :: _ =>
    match commandGrammar? name with
    | none => .error (if name = helpCommand then helpOn before.rest else .usage)
    | some grammar => do
      let after ← read grammar before.rest.length {} before.rest
      match command? name after with
      | none => .error .usage
      | some command =>
        let switch := fun s => before.switches.contains s || after.switches.contains s
        return {
          verbose := switch .verbose
          noColor := switch .noColor
          configFile := (after.setting? .config).or (before.setting? .config)
          command }

end Calculator.CommandLine
