import Calculator.Proofs.CommandLine.Options
import Calculator.Proofs.Config.Variable
import Calculator.Proofs.Log.Filter
import Calculator.Proofs.Session.Transcript

/-!
# The log has no influence

What a run leads to apart from the log (`Outcome.result`) is a function of the configuration, of the
command and of whether there are colours (`result_runInvocation`). None of them depends on the
variable for the log, which is for no setting (`result_run_of_sameButLog`), nor on the option for
more of it, which can stand anywhere before the command (`result_run_insert`). A run that fails
prints nothing (`failsSilently_run`).

This rests on two things that tracing-subscriber and rustyline promise: that a text for a filter
gives a filter or an error (`ReadsFilter`), and that an input gives its lines and then its end
(`ReadsInput`). Just where one of them cuts a text inside a character instead, the program stops
(`status_eq_stopStatus_iff`). Most texts are never cut so: `readsFilter_of_directives` and
`readsInput_of_areSmall` say which.
-/

namespace Calculator.CommandLine

variable {s s' : Surroundings} {arguments front back : List String} {flag : String}

/-! ## Results -/

/-- An outcome apart from the log: the exit status, the output and the messages. -/
def Outcome.result (o : Outcome) : Nat × String × List String := (o.status, o.output, o.messages)

/-- What an invocation results in is what its command results in, or the failure of the
configuration, or nothing if the program stops at the filter. -/
theorem result_runInvocation (s : Surroundings) (invocation : Invocation) :
    (runInvocation s invocation).result =
      match Config.load s.files invocation.configFile s.environment with
      | .error failure => (1, "", ["Error: " ++ failure.message])
      | .ok config =>
        if (s.logFilter? invocation.verbose config).isSome then
          (execute config (s.colors invocation.noColor) s.input
            invocation.command).outcome.result
        else (stopStatus, "", []) := by
  rw [runInvocation]
  cases Config.load s.files invocation.configFile s.environment with
  | error failure => rfl
  | ok config =>
    dsimp only
    cases s.logFilter? invocation.verbose config with
    | none => rfl
    | some filter =>
      simp only [Outcome.result, Outcome.messages, List.filterMap_append, messages_logLines,
        List.nil_append, Option.isSome_some, if_true]

/-! ## Reading the filter and the input -/

/-- The text for the filter of a run can be read, and gives a filter or an error. -/
def ReadsFilter (s : Surroundings) (arguments : List String) : Prop :=
  ∀ invocation config, parse arguments = .ok invocation →
    Config.load s.files invocation.configFile s.environment = .ok config →
    (s.logFilter? invocation.verbose config).isSome

/-- If a run is to hold a session, the input can be read, up to its end or to a line that quits. -/
def ReadsInput (s : Surroundings) (arguments : List String) : Prop :=
  ∀ invocation config, parse arguments = .ok invocation →
    Config.load s.files invocation.configFile s.environment = .ok config →
    invocation.command = .repl → ¬ Session.BreaksOff s.input

section Reads

variable {invocation : Invocation} {config : Config}

/-- Whether the text for the filter can be read, if it is known. -/
theorem readsFilter_iff (hparse : parse arguments = .ok invocation)
    (hload : Config.load s.files invocation.configFile s.environment = .ok config) :
    ReadsFilter s arguments ↔ (s.logFilter? invocation.verbose config).isSome := by
  refine ⟨fun h => h invocation config hparse hload, ?_⟩
  intro h invocation' config' hparse' hload'
  obtain rfl : invocation = invocation' := Except.ok.inj (hparse.symm.trans hparse')
  obtain rfl : config = config' := Except.ok.inj (hload.symm.trans hload')
  exact h

/-- Whether the input can be read, if it is known what is to be done. -/
theorem readsInput_iff (hparse : parse arguments = .ok invocation)
    (hload : Config.load s.files invocation.configFile s.environment = .ok config) :
    ReadsInput s arguments ↔ (invocation.command = .repl → ¬ Session.BreaksOff s.input) := by
  refine ⟨fun h => h invocation config hparse hload, ?_⟩
  intro h invocation' config' hparse' hload'
  obtain rfl : invocation = invocation' := Except.ok.inj (hparse.symm.trans hparse')
  exact h

/-- The text for the filter can be read if each of its directives begins without white space or has
only characters of one byte. -/
theorem readsFilter_of_directives
    (h : ∀ invocation config, parse arguments = .ok invocation →
      Config.load s.files invocation.configFile s.environment = .ok config →
      ∀ part ∈ Log.Filter.directiveTexts (s.logText invocation.verbose config),
        (∀ c ∈ part.head?, Text.isBlank c = false) ∨ ∀ c ∈ part, c.utf8Size = 1) :
    ReadsFilter s arguments := fun invocation config hparse hload =>
  Log.Filter.isSome_ofText? (h invocation config hparse hload)

/-- An input can be read if no cluster of its lines is as large as a byte can count. -/
theorem readsInput_of_areSmall
    (h : ∀ line ∈ Session.linesOf s.input.toList, Session.AreSmall (Text.clusters line)) :
    ReadsInput s arguments := fun _ _ _ _ _ hbreaks =>
  absurd hbreaks.1 (by rw [Session.breaksOff_ofText h]; exact Bool.false_ne_true)

/-- A command stops the program exactly if it is a session that breaks off. -/
theorem status_execute_eq_stopStatus_iff (config : Config) (color : Bool) (input : String)
    (command : Command) :
    (execute config color input command).outcome.status = stopStatus ↔
      command = .repl ∧ Session.BreaksOff input := by
  -- The other commands end with 0 or 1.
  have hother : ∀ status : Nat, status ≠ stopStatus → command ≠ .repl →
      (status = stopStatus ↔ command = .repl ∧ Session.BreaksOff input) := fun status hne hrepl =>
    iff_of_false hne fun h => hrepl h.1
  cases command with
  | eval text unit =>
    simp only [execute, runEval]
    split
    · exact hother 0 (by decide) (by simp)
    · exact hother 1 (by decide) (by simp)
  | check text =>
    simp only [execute, runCheck]
    split
    · exact hother 0 (by decide) (by simp)
    · exact hother 1 (by decide) (by simp)
  | tool arguments describe =>
    cases describe with
    | true => exact hother 0 (by decide) (by simp)
    | false =>
      simp only [execute, runTool]
      split
      · exact hother 0 (by decide) (by simp)
      · exact hother 1 (by decide) (by simp)
  | repl =>
    simp only [execute, runSession, Session.breaksOff_iff, true_and]
    by_cases hbreaks : Session.BreaksOff input
    · simp [hbreaks]
    · rw [if_neg hbreaks]
      exact iff_of_false (by decide) hbreaks
  | functions => exact hother 0 (by decide) (by simp)
  | stats values => exact hother 0 (by decide) (by simp)
  | config => exact hother 0 (by decide) (by simp)

/-- Where nothing is run, nothing is to be read. -/
theorem reads_of_stop {stop : Stop} (hparse : parse arguments = .error stop) :
    ReadsFilter s arguments ∧ ReadsInput s arguments := by
  have hnone : ∀ invocation, parse arguments ≠ .ok invocation := by simp [hparse]
  exact ⟨fun invocation _ h _ => absurd h (hnone invocation),
    fun invocation _ h _ _ => absurd h (hnone invocation)⟩

/-- Where no configuration is loaded, nothing is to be read. -/
theorem reads_of_failure {failure : ConfigFailure} (hparse : parse arguments = .ok invocation)
    (hload : Config.load s.files invocation.configFile s.environment = .error failure) :
    ReadsFilter s arguments ∧ ReadsInput s arguments := by
  have hnone : ∀ invocation' config, parse arguments = .ok invocation' →
      Config.load s.files invocation'.configFile s.environment ≠ .ok config := by
    intro invocation' config hparse'
    obtain rfl : invocation = invocation' := Except.ok.inj (hparse.symm.trans hparse')
    simp [hload]
  exact ⟨fun invocation' config h h' => absurd h' (hnone invocation' config h),
    fun invocation' config h h' _ => absurd h' (hnone invocation' config h)⟩

/-- **A run stops exactly if the text for the filter or the input cannot be read.** -/
theorem status_eq_stopStatus_iff (s : Surroundings) (arguments : List String) :
    (run s arguments).status = stopStatus ↔
      ¬ (ReadsFilter s arguments ∧ ReadsInput s arguments) := by
  cases hparse : parse arguments with
  | error stop =>
    refine iff_of_false ?_ (not_not_intro (reads_of_stop hparse))
    rw [run, hparse]
    cases stop with
    | usage => exact (by decide : 2 ≠ stopStatus)
    | help => exact (by decide : 0 ≠ stopStatus)
    | version => exact (by decide : 0 ≠ stopStatus)
  | ok invocation =>
    have hrun : (run s arguments).status = (runInvocation s invocation).result.1 := by
      rw [run, hparse]
      rfl
    rw [hrun, result_runInvocation]
    cases hload : Config.load s.files invocation.configFile s.environment with
    | error failure =>
      exact iff_of_false (by decide : 1 ≠ stopStatus)
        (not_not_intro (reads_of_failure hparse hload))
    | ok config =>
      rw [readsFilter_iff hparse hload, readsInput_iff hparse hload]
      dsimp only
      split
      · rename_i hfilter
        rw [Outcome.result, status_execute_eq_stopStatus_iff]
        simp [hfilter]
      · rename_i hfilter
        exact iff_of_true rfl fun h => hfilter h.1

end Reads

/-! ## The variable for the log -/

/-- The variable that says which events are logged. -/
def logVariable : String := "RUST_LOG"

/-- Two surroundings are the same but for the variable for the log, which can be set to anything or
not be set. -/
structure SameButLog (s s' : Surroundings) : Prop where
  /-- The input is the same. -/
  input : s'.input = s.input
  /-- The files are the same. -/
  files : s'.files = s.files
  /-- The output goes to a terminal in both, or in neither. -/
  terminal : s'.terminal = s.terminal
  /-- The other variables are the same. -/
  environment : s'.environment.filter (fun entry => entry.1 ≠ logVariable) =
    s.environment.filter fun entry => entry.1 ≠ logVariable

/-- The variable for the log gives no setting. -/
theorem environmentLayer_filter (environment : List (String × String)) :
    Config.environmentLayer (environment.filter fun entry => entry.1 ≠ logVariable) =
      Config.environmentLayer environment := by
  have hset : ¬ Config.IsSetting logVariable := by
    rw [Config.isSetting_iff]
    decide +kernel
  rw [Config.environmentLayer, Config.environmentLayer, List.filterMap_filter]
  refine List.filterMap_congr fun entry _ => ?_
  obtain ⟨name, value⟩ := entry
  by_cases hname : name = logVariable
  · simp only [hname, Config.ofVariable?_of_not_isSetting hset, ite_self]
  · simp [hname]

/-- The values of other variables are the same. -/
theorem SameButLog.get?_eq (h : SameButLog s s') {name : String} (hname : name ≠ logVariable) :
    s'.get? name = s.get? name := by
  have hfind : ∀ environment : List (String × String),
      (environment.filter fun entry => entry.1 ≠ logVariable).find? (fun entry => entry.1 = name) =
        environment.find? fun entry => entry.1 = name := by
    intro environment
    rw [List.find?_filter]
    congr 1
    funext entry
    by_cases hentry : entry.1 = name
    · simp [hentry, hname]
    · simp [hentry]
  rw [Surroundings.get?, Surroundings.get?, ← hfind, h.environment, hfind]

/-- The variable for the log has no influence on the configuration. -/
theorem SameButLog.load_eq (h : SameButLog s s') (path : Option String) :
    Config.load s'.files path s'.environment = Config.load s.files path s.environment := by
  rw [Config.load, Config.load, h.files, ← environmentLayer_filter, h.environment,
    environmentLayer_filter]

/-- The variable for the log has no influence on colours. -/
theorem SameButLog.colors_eq (h : SameButLog s s') (noColor : Bool) :
    s'.colors noColor = s.colors noColor := by
  rw [Surroundings.colors, Surroundings.colors, h.get?_eq (by decide), h.get?_eq (by decide),
    h.get?_eq (by decide), h.terminal]

/-- Whatever the variable for the log is set to, a run has the same result. -/
theorem result_run_of_sameButLog (h : SameButLog s s') (hfilter : ReadsFilter s arguments)
    (hfilter' : ReadsFilter s' arguments) :
    (run s' arguments).result = (run s arguments).result := by
  rw [run, run]
  cases hparse : parse arguments with
  | error stop => cases stop <;> rfl
  | ok invocation =>
    simp only [result_runInvocation, h.load_eq, h.colors_eq, h.input]
    cases hload : Config.load s.files invocation.configFile s.environment with
    | error failure => rfl
    | ok config =>
      dsimp only
      rw [if_pos (hfilter invocation config hparse hload),
        if_pos (hfilter' invocation config hparse ((h.load_eq _).trans hload))]

/-! ## The option for more of the log -/

/-- The option for more of the log is given before the command. -/
def GivesVerbose (arguments : List String) : Prop :=
  .switch .verbose ∈ (split none arguments).notes

instance : DecidablePred GivesVerbose := fun _ => inferInstanceAs (Decidable (_ ∈ _))

/-- The spellings of the option for more of the log. -/
def verboseFlags : List String := ["--verbose", "-v"]

/-- The option gives one note. -/
theorem argumentNotes?_verbose (h : flag ∈ verboseFlags) :
    argumentNotes? flag = some ([.switch .verbose], none) := by
  have hall : ∀ flag ∈ verboseFlags, argumentNotes? flag = some ([.switch .verbose], none) := by
    decide +kernel
  exact hall flag h

/-- With the option among the options before the command, the readings differ by it at most. -/
theorem read_insert (hfront : IsOptions front) (hflag : flag ∈ verboseFlags)
    (h : ¬ GivesVerbose (front ++ back)) :
    Alike (HasMore .verbose) (read programGrammar (front ++ back).length {} (front ++ back))
      (read programGrammar (front ++ flag :: back).length {} (front ++ flag :: back)) := by
  have hsplit := split_append hfront.1 hfront.2 back
  have hinserted := split_append hfront.1 hfront.2 (flag :: back)
  simp only [split, argumentNotes?_verbose hflag] at hinserted
  rw [GivesVerbose, hsplit] at h
  rw [read_programGrammar (Nat.le_refl _) rfl, read_programGrammar (Nat.le_refl _) rfl, hsplit,
    hinserted]
  exact (foldlM_add_insert (by decide) List.not_mem_nil h).bind fun _ _ hmore =>
    finish_alike hmore (split none back)

/-- With the option among the options before the command, the program is to do the same, and to log
more. -/
theorem parse_insert (hfront : IsOptions front) (hflag : flag ∈ verboseFlags)
    (h : ¬ GivesVerbose (front ++ back)) :
    Alike (fun invocation invocation' => invocation' = { invocation with verbose := true })
      (parse (front ++ back)) (parse (front ++ flag :: back)) := by
  refine (read_insert hfront hflag h).bind fun before before' hmore => ?_
  rw [hmore.others]
  cases before.others with
  | nil => exact .error _
  | cons name _ =>
    simp only [hmore.rest]
    cases commandGrammar? name with
    | none => exact .error _
    | some grammar =>
      simp only
      refine (Alike.of_eq rfl).bind ?_
      rintro after _ rfl
      cases command? name after with
      | none => exact .error _
      | some command =>
        have hverbose : before'.switches.contains .verbose = true := by
          simp [hmore.switches]
        have hcolor : before'.switches.contains .noColor = before.switches.contains .noColor := by
          simp [hmore.switches]
        refine .ok ?_
        simp only [hverbose, hcolor, Bool.true_or, Reading.setting?, hmore.settings]

/-- With the option among the options before the command, a run has the same result. -/
theorem result_run_insert (hfront : IsOptions front) (hflag : flag ∈ verboseFlags)
    (h : ¬ GivesVerbose (front ++ back)) (hfilter : ReadsFilter s (front ++ back))
    (hfilter' : ReadsFilter s (front ++ flag :: back)) :
    (run s (front ++ flag :: back)).result = (run s (front ++ back)).result := by
  have hparse := parse_insert hfront hflag h
  rw [run, run]
  -- Both command lines are to be replaced by what they are parsed to, also in the hypotheses.
  rw [ReadsFilter] at hfilter hfilter'
  generalize parse (front ++ back) = parsed at hparse hfilter
  generalize parse (front ++ flag :: back) = parsed' at hparse hfilter'
  cases hparse with
  | error stop => rfl
  | @ok invocation _ hinvocation =>
    subst hinvocation
    simp only [result_runInvocation]
    cases hload : Config.load s.files invocation.configFile s.environment with
    | error failure => rfl
    | ok config =>
      dsimp only
      rw [if_pos (hfilter _ config rfl hload), if_pos (hfilter' _ config rfl hload)]

/-! ## Failures -/

/-- An outcome that is a failure has no output. -/
def Outcome.FailsSilently (o : Outcome) : Prop := o.status ≠ 0 → o.output = ""

/-- A command that fails prints nothing, unless it is a session that breaks off. -/
theorem failsSilently_execute (config : Config) (color : Bool) (input : String)
    (command : Command) (hinput : command = .repl → ¬ Session.BreaksOff input) :
    (execute config color input command).outcome.FailsSilently := by
  cases command with
  | eval text unit =>
    simp only [execute, runEval]
    split
    · exact fun h => absurd rfl h
    · exact fun _ => rfl
  | check text =>
    simp only [execute, runCheck]
    split
    · exact fun h => absurd rfl h
    · exact fun _ => rfl
  | tool arguments describe =>
    cases describe with
    | true => exact fun h => absurd rfl h
    | false =>
      simp only [execute, runTool]
      split
      · exact fun h => absurd rfl h
      · exact fun _ => rfl
  | repl =>
    intro h
    simp only [execute, runSession, Session.breaksOff_iff, if_neg (hinput rfl)] at h
    exact absurd rfl h
  | functions => exact fun h => absurd rfl h
  | stats values => exact fun h => absurd rfl h
  | config => exact fun h => absurd rfl h

/-- A run that fails prints nothing. -/
theorem failsSilently_run (hinput : ReadsInput s arguments) : (run s arguments).FailsSilently := by
  rw [run]
  cases hparse : parse arguments with
  | error stop =>
    cases stop with
    | usage => exact fun _ => rfl
    | help => exact fun h => absurd rfl h
    | version => exact fun h => absurd rfl h
  | ok invocation =>
    simp only [runInvocation]
    cases hload : Config.load s.files invocation.configFile s.environment with
    | error failure => exact fun _ => rfl
    | ok config =>
      dsimp only
      cases s.logFilter? invocation.verbose config with
      | none => exact fun _ => rfl
      | some filter =>
        exact failsSilently_execute config (s.colors invocation.noColor) s.input
          invocation.command (hinput invocation config hparse hload)

/-- **The log has no influence on results.** Whatever the variable for the log is set to, if it is
set, a run of a command line has the same status, output and messages apart from the log; so it has
with the option for more of the log put anywhere among the options before the command, if it is not
given there. And a run that fails has no output. This is said of runs whose text for the filter can
be read, and of failures of runs whose input can be read, as the libraries that read them promise of
every text. A run stops, with the status for that, exactly where one of them cannot be read. -/
theorem log_has_no_influence (s : Surroundings) (arguments : List String) :
    (∀ s', SameButLog s s' → ReadsFilter s arguments → ReadsFilter s' arguments →
      (run s' arguments).result = (run s arguments).result) ∧
    (¬ GivesVerbose arguments → ∀ front back, arguments = front ++ back → IsOptions front →
      ∀ flag ∈ verboseFlags, ReadsFilter s arguments → ReadsFilter s (front ++ flag :: back) →
        (run s (front ++ flag :: back)).result = (run s arguments).result) ∧
    (ReadsInput s arguments → (run s arguments).status ≠ 0 → (run s arguments).output = "") ∧
    ((run s arguments).status = stopStatus ↔
      ¬ (ReadsFilter s arguments ∧ ReadsInput s arguments)) := by
  refine ⟨fun s' h hfilter hfilter' => result_run_of_sameButLog h hfilter hfilter', ?_,
    failsSilently_run, status_eq_stopStatus_iff s arguments⟩
  rintro hverbose front back rfl hfront flag hflag hfilter hfilter'
  exact result_run_insert hfront hflag hverbose hfilter hfilter'

/-- A division by zero fails in the same way with a variable that is no filter and with the option,
which comes after another one. -/
theorem log_has_no_influence_division :
    let s : Surroundings := ⟨"", [], [("RUST_LOG", "a=b=c")], false⟩
    (run s ["--no-color", "-v", "eval", "--", "1/0"]).result =
      (1, "", ["Error: division by zero"]) := by
  intro s
  let bare : Surroundings := ⟨"", [], [], false⟩
  have hfilter : ∀ arguments, ReadsFilter s arguments := by
    intro arguments
    refine readsFilter_of_directives fun invocation config _ _ => ?_
    have htext : s.logText invocation.verbose config = "a=b=c" := rfl
    have htexts : Log.Filter.directiveTexts "a=b=c" = ["a=b=c".toList] := by decide +kernel
    rw [htext, htexts]
    have hhead : ∀ c ∈ "a=b=c".toList.head?, Text.isBlank c = false := by
      rintro c ⟨⟩
      decide
    exact List.forall_mem_singleton.2 (.inl hhead)
  have hdefault : (bare.logFilter? false .defaults).isSome := by decide +kernel
  have hparse : parse ["--no-color", "eval", "--", "1/0"] =
      .ok ⟨false, true, none, .eval "1/0" none⟩ := rfl
  have hbare : ReadsFilter bare ["--no-color", "eval", "--", "1/0"] :=
    (readsFilter_iff hparse load_of_nothing).2 hdefault
  have hinput : ReadsInput bare ["--no-color", "eval", "--", "1/0"] :=
    readsInput_of_areSmall (by decide)
  have hsame : SameButLog bare s := ⟨rfl, rfl, rfl, by decide⟩
  have hgives : ¬ GivesVerbose ["--no-color", "eval", "--", "1/0"] := by decide +kernel
  have hfront : IsOptions ["--no-color"] := by decide +kernel
  obtain ⟨hvariable, -, hsilent, -⟩ :=
    log_has_no_influence bare ["--no-color", "eval", "--", "1/0"]
  obtain ⟨-, hoption, -⟩ := log_has_no_influence s ["--no-color", "eval", "--", "1/0"]
  rw [← List.singleton_append, hoption hgives ["--no-color"] ["eval", "--", "1/0"] rfl hfront "-v"
    (by decide) (hfilter _) (hfilter _), hvariable s hsame hbare (hfilter _)]
  have hrequest : request .defaults "1/0" .degrees = .error .divisionByZero := by decide +kernel
  obtain ⟨hstatus, -, hmessages⟩ :=
    (ResultsIn.run (leadsTo_eval (s := bare) "1/0" load_of_nothing hdefault)).eval_of_error rfl
      hrequest
  have houtput := hsilent hinput (by rw [hstatus]; decide)
  rw [Outcome.result, hstatus, houtput, hmessages]
  rfl

end Calculator.CommandLine
