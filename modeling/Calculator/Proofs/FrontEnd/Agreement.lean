import Calculator.CommandLine.Run
import Calculator.Proofs.FrontEnd.Length
import Calculator.Proofs.LetterCase.Normalization

/-!
# The same request has the same answer everywhere

An expression can be typed into a session, given to the tool and given to the commands that evaluate
and check. Each of the four accepts, computes and words by itself. They agree (`frontEnds_agree`)
because each answer is a function of one computation, `request`, or for the command that checks of
`inspection`; the lemmas below give these functions, one for success and one for failure.

Where the unit comes from is different in every front end. `Asks` says it of the tool, which passes
over a unit that it cannot read. `ResultsIn` says what a command leads to, as a function of the
configuration or at the end of a run of the whole program without colours. The log goes to the error
output too; `Outcome.messages` is the rest.
-/

namespace Calculator

open CommandLine

variable {config : Config} {text : String} {unit : AngleUnit} {f : Failure}

/-! ## What is asked for -/

/-- The unit that a call of the tool asks for. -/
inductive Asks (config : Config) : Option String → AngleUnit → Prop where
  /-- Without a unit, the configured one. -/
  | nothing : Asks config none config.angleUnit
  /-- The unit that is named. -/
  | named {word : String} {unit : AngleUnit} : AngleUnit.read word = .ok unit →
      Asks config (some word) unit
  /-- Where no unit is named, the configured one. -/
  | unknown {word : String} {u : AngleUnit.Unknown} : AngleUnit.read word = .error u →
      Asks config (some word) config.angleUnit

/-- The tool takes the unit that it is asked for. -/
theorem unitFor_of_asks {asked : Option String} (h : Asks config asked unit) :
    Tool.unitFor config asked = unit := by
  cases h with
  | nothing => rfl
  | named hread => simp only [Tool.unitFor, hread]
  | unknown hread => simp only [Tool.unitFor, hread]

/-- The value of an expression that is accepted. -/
def request (config : Config) (text : String) (unit : AngleUnit) : Except Failure Binary64 :=
  accept config text >>= fun expression => evaluateText expression unit

/-- The check of an expression that is accepted. -/
def inspection (config : Config) (text : String) : Except Failure Unit :=
  accept config text >>= validateText

/-- The two wordings of a failure differ for expressions that are too long, and for no others. -/
theorem message_eq_complaint (h : request config text unit = .error f) :
    f.message =
      (if config.Exceeds text then "invalid expression: " else "") ++ Tool.complaint f := by
  by_cases hlong : config.Exceeds text
  · rw [request, accept_of_exceeds hlong] at h
    cases h
    rw [if_pos hlong, message_invalid]
    rfl
  · rw [request, accept_of_not_exceeds hlong] at h
    rw [if_neg hlong, String.empty_append,
      complaint_of_not_isOverLong (fitting_evaluateText _ _ f h)]

/-- The check of an expression that has a value finds nothing. -/
theorem inspection_of_request {x : Binary64} (h : request config text unit = .ok x) :
    inspection config text = .ok () := by
  obtain ⟨expression, haccept, hx⟩ := bind_eq_ok.1 h
  rw [inspection, haccept, ok_bind, validateText_of_evaluateText hx]

/-- A check fails over the length of the expression, or over the expression. -/
theorem inspection_eq_error_iff : (∃ f, inspection config text = .error f) ↔
    config.Exceeds text ∨ ∃ f, validateText (Text.normalize text) = .error f := by
  rw [inspection]
  by_cases hlong : config.Exceeds text
  · rw [accept_of_exceeds hlong]
    exact iff_of_true ⟨_, rfl⟩ (.inl hlong)
  · rw [accept_of_not_exceeds hlong, ok_bind]
    exact (or_iff_right hlong).symm

/-- The failures that need no computation: over the length, over reading the expression, and over
the names and the numbers of arguments in it. -/
def FailsStatically (config : Config) (text : String) (unit : AngleUnit) : Prop :=
  config.Exceeds text ∨ (∃ f, Expr.ofText (Text.normalize text) = .error f) ∨
    ∃ f, f.IsStatic ∧ evaluateText (Text.normalize text) unit = .error f

/-- The check fails like the request where that needs no computation. -/
theorem exists_of_failsStatically (h : FailsStatically config text unit) :
    ∃ f, request config text unit = .error f ∧ inspection config text = .error f := by
  by_cases hlong : config.Exceeds text
  · rw [request, inspection, accept_of_exceeds hlong]
    exact ⟨_, rfl, rfl⟩
  · rw [request, inspection, accept_of_not_exceeds hlong, ok_bind, ok_bind]
    rcases h with h | ⟨f, hf⟩ | ⟨f, hstatic, hf⟩
    · exact absurd h hlong
    · exact ⟨f, by rw [evaluateText, hf, error_bind], by rw [validateText, hf, error_bind]⟩
    · refine ⟨f, hf, ?_⟩
      rcases bind_eq_error.1 hf with hread | ⟨e, hread, hvalue⟩
      · rw [validateText, hread, error_bind]
      · rw [validateText, hread, ok_bind, Expr.check_eq_error_of_evaluate hvalue hstatic]

/-! ## The session and the tool -/

/-- A line that does not begin with a colon is answered, and changes nothing. -/
theorem execute_of_not_colon {line : String} (color : Bool) (engine : Engine)
    (h : line.toList.head? ≠ some ':') :
    Session.execute config color engine line =
      ⟨false, some (Session.answer config color engine line), engine⟩ := by
  -- Every command begins with a colon.
  have hcommand : ∀ command : String, command.toList.head? = some ':' → line ≠ command := by
    rintro command hcolon rfl
    exact h hcolon
  have hquit : line ∉ [":quit", ":q", ":exit"] := by
    simp [hcommand ":quit" rfl, hcommand ":q" rfl, hcommand ":exit" rfl]
  have hhelp : line ∉ [":help", ":?"] := by
    simp [hcommand ":help" rfl, hcommand ":?" rfl]
  rw [Session.execute, if_neg hquit, if_neg (hcommand ":deg" rfl), if_neg (hcommand ":rad" rfl),
    if_neg hhelp, if_neg h]

/-- A session answers with the value, or with a complaint. -/
theorem answer_eq : Session.answer config false ⟨unit⟩ (Text.trim text) =
    match request config text unit with
    | .ok x => "= " ++ x.format config.precision
    | .error f => "Error: " ++ Tool.complaint f := by
  have hrequest :
      (do Engine.evaluate ⟨unit⟩ (← accept config text)) = request config text unit := rfl
  rw [Session.answer, accept_trim, hrequest]
  cases request config text unit <;> rfl

/-- The tool answers with the text and the value, or with a complaint. -/
theorem call_eq {asked : Option String} (hasked : Asks config asked unit) :
    Tool.call config ⟨text, asked⟩ =
      match request config text unit with
      | .ok x =>
        "Result\n\nExpression: " ++ Text.trim text ++ "\nResult: " ++ x.format config.precision
      | .error f => "Calculation error: " ++ Tool.complaint f := by
  have hrequest : (do evaluateText (← accept config text) (Tool.unitFor config asked)) =
      request config text unit := by
    rw [unitFor_of_asks hasked]
    rfl
  rw [Tool.call]
  cases h : request config text unit <;> simp only [hrequest, h]

/-! ## Commands -/

namespace CommandLine

/-- A line of the error output that is not of the log. -/
def Report.plain? : Report → Option String
  | plain line => some line
  | logged _ => none

/-- The error output without the log. -/
def Outcome.messages (outcome : Outcome) : List String :=
  outcome.reports.filterMap Report.plain?

/-- A command line by which the program does a command, under a configuration and without colours.
It does not stop before, at the filter of the log. -/
def LeadsTo (s : Surroundings) (arguments : List String) (config : Config) (command : Command) :
    Prop :=
  ∃ invocation, parse arguments = .ok invocation ∧ invocation.command = command ∧
    Config.load s.files invocation.configFile s.environment = .ok config ∧
    s.colors invocation.noColor = false ∧ (s.logFilter? invocation.verbose config).isSome

/-- What a command results in, without colours. -/
inductive ResultsIn (config : Config) (command : Command) : Outcome → Prop where
  /-- The command by itself. -/
  | command (input : String) : ResultsIn config command (execute config false input command).outcome
  /-- A run of the program. -/
  | run {s : Surroundings} {arguments : List String} : LeadsTo s arguments config command →
      ResultsIn config command (run s arguments)

/-- Every text can be given to the command that evaluates. -/
theorem leadsTo_eval {s : Surroundings} (text : String)
    (hload : Config.load s.files none s.environment = .ok config)
    (hfilter : (s.logFilter? false config).isSome) :
    LeadsTo s ["--no-color", "eval", "--", text] config (.eval text none) :=
  ⟨⟨false, true, none, .eval text none⟩, rfl, rfl, hload, rfl, hfilter⟩

/-- Every text can be given to the command that checks. -/
theorem leadsTo_check {s : Surroundings} (text : String)
    (hload : Config.load s.files none s.environment = .ok config)
    (hfilter : (s.logFilter? false config).isSome) :
    LeadsTo s ["--no-color", "check", "--", text] config (.check text) :=
  ⟨⟨false, true, none, .check text⟩, rfl, rfl, hload, rfl, hfilter⟩

/-- Without files and variables the configuration is the default one. -/
theorem load_of_nothing : Config.load [] none [] = .ok .defaults := by
  have hfind : Files.find? [] Config.defaultFile = none := by
    unfold Files.find?
    split <;> rfl
  rw [Config.load, Config.readFile, hfind]
  rfl

/-- The log is no message. -/
theorem messages_logLines (s : Surroundings) (invocation : Invocation) (filter : Log.Filter)
    (events : List Log.Event) :
    (logLines s invocation filter events).filterMap Report.plain? = [] := by
  simp [logLines, Report.plain?]

/-- An outcome of success has an output and no messages. -/
def Outcome.Succeeds (o : Outcome) (output : String) : Prop :=
  o.status = 0 ∧ o.output = output ∧ o.messages = []

/-- An outcome of failure has a message and no output. -/
def Outcome.Fails (o : Outcome) (message : String) : Prop :=
  o.status = 1 ∧ o.output = "" ∧ o.messages = [message]

/-- A run results in the same as its command, but for the log. -/
theorem exists_of_resultsIn {command : Command} {o : Outcome} (h : ResultsIn config command o) :
    ∃ input, let o' := (execute config false input command).outcome
      o.status = o'.status ∧ o.output = o'.output ∧ o.messages = o'.messages := by
  cases h with
  | command input => exact ⟨input, rfl, rfl, rfl⟩
  | @run s arguments h =>
    obtain ⟨invocation, hparse, rfl, hload, hcolors, hfilter⟩ := h
    obtain ⟨filter, hfilter⟩ := Option.isSome_iff_exists.1 hfilter
    refine ⟨s.input, ?_⟩
    rw [CommandLine.run, hparse]
    simp only [runInvocation, hload, hcolors, hfilter, true_and]
    rw [Outcome.messages, List.filterMap_append, messages_logLines, List.nil_append,
      Outcome.messages]

variable {command : Command} {o : Outcome}

/-- A command that prints something results in that. -/
theorem ResultsIn.succeeds {output : String} (h : ResultsIn config command o)
    (hcommand : ∀ input, (execute config false input command).outcome = { status := 0, output }) :
    o.Succeeds output := by
  obtain ⟨input, hresult⟩ := exists_of_resultsIn h
  rw [hcommand input] at hresult
  exact hresult

/-- A command that fails results in the failure. -/
theorem ResultsIn.fails (h : ResultsIn config command o)
    (hcommand : ∀ input, (execute config false input command).outcome = failed false f) :
    o.Fails ("Error: " ++ f.message) := by
  obtain ⟨input, hresult⟩ := exists_of_resultsIn h
  rw [hcommand input] at hresult
  exact hresult

variable {given : Option AngleUnit} {evaluated checked : Outcome}

/-- The command that evaluates prints the value. -/
theorem ResultsIn.eval_of_ok {x : Binary64} (h : ResultsIn config (.eval text given) o)
    (hgiven : given.getD config.angleUnit = unit) (hx : request config text unit = .ok x) :
    o.Succeeds (x.format config.precision ++ "\n") := by
  refine h.succeeds fun _ => ?_
  rw [request, ← hgiven] at hx
  simp only [execute, runEval, hx]

/-- The command that evaluates fails with the failure. -/
theorem ResultsIn.eval_of_error (h : ResultsIn config (.eval text given) o)
    (hgiven : given.getD config.angleUnit = unit) (hf : request config text unit = .error f) :
    o.Fails ("Error: " ++ f.message) := by
  refine h.fails fun _ => ?_
  rw [request, ← hgiven] at hf
  simp only [execute, runEval, hf]

/-- The command that checks prints the normal form. -/
theorem ResultsIn.check_of_ok (h : ResultsIn config (.check text) o)
    (hx : inspection config text = .ok ()) :
    o.Succeeds ("[OK] " ++ Text.normalize text ++ "\n") := by
  refine h.succeeds fun _ => ?_
  by_cases hlong : config.Exceeds text
  · rw [inspection, accept_of_exceeds hlong] at hx
    cases hx
  · rw [inspection, accept_of_not_exceeds hlong, ok_bind] at hx
    simp only [execute, runCheck, accept_of_not_exceeds hlong, ok_bind, hx]
    rfl

/-- The command that checks fails with the failure. -/
theorem ResultsIn.check_of_error (h : ResultsIn config (.check text) o)
    (hf : inspection config text = .error f) : o.Fails ("Error: " ++ f.message) := by
  refine h.fails fun _ => ?_
  rw [inspection] at hf
  have hbind : (do
      let expression ← accept config text
      validateText expression
      return expression) = .error f := by
    rcases bind_eq_error.1 hf with hf | ⟨expression, haccept, hf⟩
    · rw [hf, error_bind]
    · rw [haccept, ok_bind, hf, error_bind]
  simp only [execute, runCheck, hbind]

/-- The command that checks fails like the command that evaluates, where it can. -/
theorem check_agrees (hgiven : given.getD config.angleUnit = unit)
    (hevaluated : ResultsIn config (.eval text given) evaluated)
    (hchecked : ResultsIn config (.check text) checked) :
    (FailsStatically config text unit →
      ∃ message, evaluated.Fails message ∧ checked.Fails message) ∧
    (checked.status = 1 ↔
      config.Exceeds text ∨ ∃ f, validateText (Text.normalize text) = .error f) ∧
    (checked.status = 1 → evaluated.status = 1) ∧
    (checked.status ≠ 1 → checked.Succeeds ("[OK] " ++ Text.normalize text ++ "\n")) := by
  refine ⟨fun h => ?_, ?_⟩
  · obtain ⟨f, hrequest, hinspection⟩ := exists_of_failsStatically h
    exact ⟨_, hevaluated.eval_of_error hgiven hrequest, hchecked.check_of_error hinspection⟩
  rw [← inspection_eq_error_iff]
  cases hinspection : inspection config text with
  | ok _ =>
    have hsucceeds := hchecked.check_of_ok hinspection
    have hne : checked.status ≠ 1 := by
      rw [hsucceeds.1]
      decide
    exact ⟨iff_of_false hne nofun, fun h => absurd h hne, fun _ => hsucceeds⟩
  | error f =>
    have hstatus : checked.status = 1 := (hchecked.check_of_error hinspection).1
    refine ⟨iff_of_true hstatus ⟨f, rfl⟩, fun _ => ?_, fun h => absurd hstatus h⟩
    -- An expression with a value would have passed the check.
    cases hrequest : request config text unit with
    | ok x =>
      rw [inspection_of_request hrequest] at hinspection
      cases hinspection
    | error g => exact (hevaluated.eval_of_error hgiven hrequest).1

end CommandLine

/-! ## Agreement -/

/-- Texts that begin with different characters are different. -/
theorem ne_of_head?_ne {s t : String} (h : s.toList.head? ≠ t.toList.head?) : s ≠ t := by
  rintro rfl
  exact h rfl

/-- **The same request has the same answer everywhere.** For every configuration, every unit that is
in force and every text that is no command of a session once it is trimmed: the session answers with
a value exactly if the tool does and exactly if the command that evaluates prints it and succeeds,
and it is the same value. Otherwise all three complain of the same, and the command fails without an
output; only of an expression that is too long does it say more than the others. The command that
checks fails in the same way where that needs no computation. It fails exactly for the expressions
that are too long or in which the check finds a fault, of which none has a value, and succeeds for
all others. -/
theorem frontEnds_agree {asked : Option String} {given : Option AngleUnit}
    {evaluated checked : Outcome} (hasked : Asks config asked unit)
    (hgiven : given.getD config.angleUnit = unit)
    (hcolon : (Text.trim text).toList.head? ≠ some ':')
    (hevaluated : ResultsIn config (.eval text given) evaluated)
    (hchecked : ResultsIn config (.check text) checked) :
    let line := Session.execute config false ⟨unit⟩ (Text.trim text)
    let reply := Tool.call config ⟨text, asked⟩
    (line.quits = false ∧ line.engine = ⟨unit⟩) ∧
    (∀ T, (line.output = some ("= " ++ T) ↔
        reply = "Result\n\nExpression: " ++ Text.trim text ++ "\nResult: " ++ T) ∧
      (line.output = some ("= " ++ T) ↔ evaluated.status = 0 ∧ evaluated.output = T ++ "\n")) ∧
    ((¬ ∃ T, line.output = some ("= " ++ T)) → ∃ M,
      reply = "Calculation error: " ++ M ∧ line.output = some ("Error: " ++ M) ∧
      evaluated.Fails
        ("Error: " ++ ((if config.Exceeds text then "invalid expression: " else "") ++ M))) ∧
    (FailsStatically config text unit →
      ∃ message, evaluated.Fails message ∧ checked.Fails message) ∧
    (checked.status = 1 ↔
      config.Exceeds text ∨ ∃ f, validateText (Text.normalize text) = .error f) ∧
    (checked.status = 1 → evaluated.status = 1) ∧
    (checked.status ≠ 1 → checked.Succeeds ("[OK] " ++ Text.normalize text ++ "\n")) := by
  intro line reply
  have hline : line =
      ⟨false, some (Session.answer config false ⟨unit⟩ (Text.trim text)), ⟨unit⟩⟩ :=
    execute_of_not_colon false ⟨unit⟩ hcolon
  have hreply : reply = _ := call_eq hasked
  rw [hline]
  refine ⟨⟨rfl, rfl⟩, ?_⟩
  rw [← and_assoc]
  refine ⟨?_, check_agrees hgiven hevaluated hchecked⟩
  cases hrequest : request config text unit with
  | ok x =>
    obtain ⟨hstatus, houtput, -⟩ := hevaluated.eval_of_ok hgiven hrequest
    simp only [answer_eq, hreply, hrequest]
    rw [hstatus, houtput]
    refine ⟨fun T => ⟨?_, ?_⟩, fun h => absurd ⟨_, rfl⟩ h⟩
    · rw [Option.some_inj, String.append_right_inj, String.append_right_inj]
    · rw [Option.some_inj, String.append_right_inj, String.append_left_inj, eq_self, true_and]
  | error f =>
    have hfails := hevaluated.eval_of_error hgiven hrequest
    rw [message_eq_complaint hrequest] at hfails
    simp only [answer_eq, hreply, hrequest]
    have hnone : ∀ T, some ("Error: " ++ Tool.complaint f) ≠ some ("= " ++ T) := fun T h =>
      absurd (Option.some.inj h) (ne_of_head?_ne (by simp))
    refine ⟨fun T => ⟨iff_of_false (hnone T) ?_, iff_of_false (hnone T) ?_⟩,
      fun _ => ⟨_, rfl, rfl, hfails⟩⟩
    · exact ne_of_head?_ne (by simp)
    · rw [hfails.1]
      exact fun h => absurd h.1 (by decide)

/-- The sine of 30 degrees, to the tool in a unit that it does not know and to the commands that
evaluate and check, under the configuration of a directory without files. -/
theorem frontEnds_agree_sine :
    let s : Surroundings := ⟨"", [], [], false⟩
    Tool.call .defaults ⟨" Sin(30) ", some "gon"⟩ =
      "Result\n\nExpression: Sin(30)\nResult: 0.5" ∧
    (run s ["--no-color", "eval", "--", " Sin(30) "]).output = "0.5\n" ∧
    (run s ["--no-color", "check", "--", " Sin(30) "]).status ≠ 1 := by
  intro s
  have hasked : Asks .defaults (some "gon") .degrees := .unknown rfl
  have hload : Config.load s.files none s.environment = .ok .defaults := load_of_nothing
  have hfilter : (s.logFilter? false .defaults).isSome := by decide +kernel
  obtain ⟨-, hvalue, -, -, -, hstatus, -⟩ := frontEnds_agree hasked rfl (by decide)
    (.run (leadsTo_eval " Sin(30) " hload hfilter))
    (.run (leadsTo_check " Sin(30) " hload hfilter))
  have hline : (Session.execute .defaults false ⟨.degrees⟩ (Text.trim " Sin(30) ")).output =
      some ("= " ++ "0.5") := by decide +kernel
  obtain ⟨hzero, houtput⟩ := (hvalue "0.5").2.1 hline
  refine ⟨(hvalue "0.5").1.1 hline, houtput, fun h => ?_⟩
  rw [hstatus h] at hzero
  exact absurd hzero (by decide)

end Calculator
