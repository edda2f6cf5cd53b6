import Mathlib.Tactic.SplitIfs
import Calculator.Proofs.FrontEnd.Agreement
import Calculator.Proofs.Session.Backspaces

/-!
# What a session answers

A session is a machine that reads lines. Its state is the angle unit, which only the two commands
for it set (`engine_execute`), so the unit in force at a line is that of the last such command
before it (`unitAfter`), and the answer to the line is the one that a new engine with this unit
gives. The run of the machine is then known line by line (`steps_eq`), and with it all that is
printed. What comes after the first line that quits is not looked at, neither for the answers
(`steps_throughFirst` and `answeredLines_eq`) nor for the log (`sessionEvents_throughFirst`), nor
for whether the session breaks off (`breaksOff_iff`).
-/

namespace Calculator.Session

variable {α : Type} {config : Config} {color : Bool} {unit : AngleUnit} {line : String}

/-! ## Lines -/

/-- The commands that end a session. -/
def IsQuit (line : String) : Prop := line ∈ [":quit", ":q", ":exit"]

instance : DecidablePred IsQuit := fun _ => inferInstanceAs (Decidable (_ ∈ _))

/-- The lines that end a session as they are typed, with white space around the command. -/
def TypesQuit (line : String) : Prop := IsQuit (Text.trim line)

instance : DecidablePred TypesQuit := fun _ => inferInstanceAs (Decidable (IsQuit _))

/-- The unit that a line sets, if it is a command for that. -/
def unitCommand? (line : String) : Option AngleUnit :=
  if line = ":deg" then some .degrees
  else if line = ":rad" then some .radians
  else none

/-- The unit in force after some lines: that of the last command for it, or the one before them if
there is none. -/
def unitAfter (start : AngleUnit) (lines : List String) : AngleUnit :=
  (lines.reverse.findSome? unitCommand?).getD start

/-- The front of a list up to the first element with a property, which it includes. -/
def throughFirst (p : α → Prop) [DecidablePred p] (l : List α) : List α :=
  l.takeWhile (¬ p ·) ++ (l.dropWhile (¬ p ·)).take 1

/-- The lines that a session answers: trimmed, not empty, and up to the first one that quits. -/
def answeredLines (input : String) : List String :=
  throughFirst IsQuit (((inputLines input).map Text.trim).filter (· ≠ ""))

/-- The lines that a session reads, as they were typed: up to the first one that quits. -/
def readLines (input : String) : List String :=
  throughFirst TypesQuit (inputLines input)

/-- The session ends at a line that cannot be read: no line that it reads before quits. -/
def BreaksOff (input : String) : Prop :=
  (Input.ofText input).breaksOff = true ∧ ∀ line ∈ readLines input, ¬ TypesQuit line

instance : DecidablePred BreaksOff := fun _ => inferInstanceAs (Decidable (_ ∧ _))

section throughFirst

variable {p : α → Prop} [DecidablePred p] {a : α} {l : List α}

theorem throughFirst_cons_of_pos (h : p a) : throughFirst p (a :: l) = [a] := by
  simp [throughFirst, h]

theorem throughFirst_cons_of_neg (h : ¬ p a) :
    throughFirst p (a :: l) = a :: throughFirst p l := by
  simp [throughFirst, h]

/-- If there is an element with the property, the first one is included. -/
theorem exists_mem_throughFirst : (∃ a ∈ throughFirst p l, p a) ↔ ∃ a ∈ l, p a := by
  induction l with
  | nil => rfl
  | cons a l ih =>
    by_cases h : p a
    · simp [throughFirst_cons_of_pos h, h]
    · simp [throughFirst_cons_of_neg h, h, ih]

end throughFirst

/-- The empty line does not quit. -/
theorem not_isQuit_empty : ¬ IsQuit "" := by decide

/-- Whether lines are trimmed and thinned out before or after the session has quit makes no
difference. -/
theorem throughFirst_filter_map (lines : List String) :
    throughFirst IsQuit ((lines.map Text.trim).filter (· ≠ "")) =
      ((throughFirst TypesQuit lines).map Text.trim).filter (· ≠ "") := by
  induction lines with
  | nil => rfl
  | cons line others ih =>
    by_cases hquit : TypesQuit line
    · have hne : Text.trim line ≠ "" := fun h => not_isQuit_empty (h ▸ hquit)
      rw [throughFirst_cons_of_pos hquit, List.map_cons, List.map_cons,
        List.filter_cons_of_pos (by simpa using hne), List.filter_cons_of_pos (by simpa using hne)]
      exact throughFirst_cons_of_pos hquit
    · rw [throughFirst_cons_of_neg hquit, List.map_cons, List.map_cons]
      by_cases hne : Text.trim line = ""
      · rw [List.filter_cons_of_neg (by simpa using hne),
          List.filter_cons_of_neg (by simpa using hne), ih]
      · rw [List.filter_cons_of_pos (by simpa using hne),
          List.filter_cons_of_pos (by simpa using hne), ← ih]
        exact throughFirst_cons_of_neg hquit

/-- The lines that are answered are among those that are read. -/
theorem answeredLines_eq (input : String) :
    answeredLines input = ((readLines input).map Text.trim).filter (· ≠ "") :=
  throughFirst_filter_map _

/-! ## One line -/

/-- Only the commands for it set the unit. -/
theorem engine_execute (config : Config) (color : Bool) (unit : AngleUnit) (line : String) :
    (execute config color ⟨unit⟩ line).engine = ⟨(unitCommand? line).getD unit⟩ := by
  by_cases hquit : line ∈ [":quit", ":q", ":exit"]
  · -- A command that ends the session sets no unit.
    have hnone : unitCommand? line = none :=
      (by decide : ∀ line ∈ [":quit", ":q", ":exit"], unitCommand? line = none) line hquit
    rw [execute, if_pos hquit, hnone]
    rfl
  · rw [execute, if_neg hquit, unitCommand?]
    split_ifs <;> rfl

/-- Only the commands for it end the session. -/
theorem quits_execute (config : Config) (color : Bool) (engine : Engine) (line : String) :
    (execute config color engine line).quits = true ↔ IsQuit line := by
  rw [execute, IsQuit]
  split_ifs with hquit hdeg hrad hhelp hcolon <;> simp [hquit]

/-! ## All lines -/

/-- The unit after some lines is that after the later ones, from the unit after the first one on. -/
theorem unitAfter_cons (start : AngleUnit) (line : String) (others : List String) :
    unitAfter start (line :: others) = unitAfter ((unitCommand? line).getD start) others := by
  rw [unitAfter, unitAfter, List.reverse_cons, List.findSome?_append]
  cases others.reverse.findSome? unitCommand? <;> simp

/-- What follows the line that quits is not answered. -/
theorem steps_throughFirst (engine : Engine) (lines : List String) :
    steps config color engine (throughFirst IsQuit lines) = steps config color engine lines := by
  induction lines generalizing engine with
  | nil => rfl
  | cons line others ih =>
    by_cases hquit : IsQuit line
    · rw [throughFirst_cons_of_pos hquit]
      simp only [steps, if_pos ((quits_execute config color engine line).2 hquit)]
    · rw [throughFirst_cons_of_neg hquit, steps, steps, if_neg (mt (quits_execute ..).1 hquit),
        if_neg (mt (quits_execute ..).1 hquit), ih]

/-- Every line up to the first one that quits is answered in the unit that the lines before it
leave. -/
theorem steps_eq (lines : List String) :
    steps config color ⟨unit⟩ lines =
      (throughFirst IsQuit lines).mapIdx fun i line =>
        execute config color ⟨unitAfter unit ((throughFirst IsQuit lines).take i)⟩ line := by
  induction lines generalizing unit with
  | nil => rfl
  | cons line others ih =>
    by_cases hquit : IsQuit line
    · rw [throughFirst_cons_of_pos hquit, steps, if_pos ((quits_execute ..).2 hquit)]
      rfl
    · rw [throughFirst_cons_of_neg hquit, steps, if_neg (mt (quits_execute ..).1 hquit),
        engine_execute, ih, List.mapIdx_cons]
      simp only [List.take_succ_cons, unitAfter_cons]
      rfl

/-- What follows the line that quits is not logged. -/
theorem sessionEvents_throughFirst (engine : Engine) (lines : List String) :
    CommandLine.sessionEvents config engine (throughFirst TypesQuit lines) =
      CommandLine.sessionEvents config engine lines := by
  induction lines generalizing engine with
  | nil => rfl
  | cons line others ih =>
    by_cases hquit : TypesQuit line
    · have hne : Text.trim line ≠ "" := fun h => not_isQuit_empty (h ▸ hquit)
      have hends := (quits_execute config false engine (Text.trim line)).2 hquit
      rw [throughFirst_cons_of_pos hquit]
      simp only [CommandLine.sessionEvents, if_neg hne, if_pos hends]
    · rw [throughFirst_cons_of_neg hquit]
      simp only [CommandLine.sessionEvents, ih]

/-- A session quits if one of its lines does. -/
theorem any_quits_steps (engine : Engine) (lines : List String) :
    (steps config color engine lines).any Step.quits = true ↔ ∃ line ∈ lines, IsQuit line := by
  induction lines generalizing engine with
  | nil => simp [steps]
  | cons line others ih =>
    by_cases hquit : IsQuit line
    · have hends := (quits_execute config color engine line).2 hquit
      simp [steps, hends, hquit]
    · have hgoes := mt (quits_execute config color engine line).1 hquit
      rw [steps, if_neg hgoes, List.any_cons, eq_false_of_ne_true hgoes, Bool.false_or, ih]
      simp [hquit]

/-- A line that quits is not empty, so a session for an input quits if one of the lines that it
reads does. -/
theorem any_quits_stepsFor (input : String) :
    (stepsFor config color input).any Step.quits = true ↔
      ∃ line ∈ readLines input, TypesQuit line := by
  rw [stepsFor, any_quits_steps, readLines, exists_mem_throughFirst]
  constructor
  · rintro ⟨line, hline, hquit⟩
    obtain ⟨hmem, -⟩ := List.mem_filter.1 hline
    obtain ⟨typed, htyped, rfl⟩ := List.mem_map.1 hmem
    exact ⟨typed, htyped, hquit⟩
  · rintro ⟨typed, htyped, hquit⟩
    have hne : Text.trim typed ≠ "" := fun h => not_isQuit_empty (h ▸ hquit)
    have hmem : Text.trim typed ∈ usedLines input :=
      List.mem_filter.2 ⟨List.mem_map_of_mem htyped, by simpa using hne⟩
    exact ⟨Text.trim typed, hmem, hquit⟩

/-- A session breaks off at a line that cannot be read if no line before it quits. -/
theorem breaksOff_iff (input : String) : breaksOff config color input = true ↔ BreaksOff input := by
  rw [breaksOff, BreaksOff, Bool.and_eq_true, Bool.not_eq_true', ← Bool.not_eq_true,
    any_quits_stepsFor]
  simp only [not_exists, not_and]

/-- What a session leads to depends on the lines up to the one that quits; and if none of them does,
on whether all lines can be read. -/
theorem runSession_congr {input input' : String} (h : readLines input = readLines input')
    (hend : (∃ line ∈ readLines input, TypesQuit line) ∨
      (Input.ofText input).breaksOff = (Input.ofText input').breaksOff) :
    CommandLine.runSession config color input = CommandLine.runSession config color input' := by
  have hsteps : stepsFor config color input = stepsFor config color input' := by
    rw [stepsFor, stepsFor, ← steps_throughFirst, ← steps_throughFirst _ (usedLines input')]
    change steps _ _ _ (answeredLines input) = steps _ _ _ (answeredLines input')
    rw [answeredLines_eq, answeredLines_eq, h]
  have hevents : CommandLine.sessionEvents config ⟨config.angleUnit⟩ (inputLines input) =
      CommandLine.sessionEvents config ⟨config.angleUnit⟩ (inputLines input') := by
    rw [← sessionEvents_throughFirst, ← sessionEvents_throughFirst _ (inputLines input')]
    exact congrArg _ h
  have hbreaks : breaksOff config color input = breaksOff config color input' := by
    rw [Bool.eq_iff_iff, breaksOff_iff, breaksOff_iff, BreaksOff, BreaksOff, ← h]
    rcases hend with ⟨line, hline, hquit⟩ | hend
    · exact iff_of_false (fun hall => hall.2 line hline hquit) fun hall => hall.2 line hline hquit
    · rw [hend]
  simp only [CommandLine.runSession, transcript, hsteps, hevents, hbreaks]

/-- The answers of a session are those of its steps. -/
theorem outputs_steps (lines : List String) :
    (steps config color ⟨unit⟩ lines).map Step.output =
      (throughFirst IsQuit lines).mapIdx fun i line =>
        (execute config color ⟨unitAfter unit ((throughFirst IsQuit lines).take i)⟩
          line).output := by
  rw [steps_eq, List.mapIdx_eq_zipIdx_map, List.mapIdx_eq_zipIdx_map, List.map_map]
  rfl

/-- **A session is determined line by line by the unit commands before each line.** What a session
prints is the banner, then for each line that is trimmed and not empty, up to the first one that
quits, the answer to it, if it has one, and at the end the farewell. The answer is the one that a
new engine gives in the unit of the last command for the unit before the line, or in the configured
unit if there is none. Only the commands for it set the unit and only those for it quit, and an
expression changes nothing, whatever becomes of it. What the input holds after the line that quits
has no influence on what is printed, returned and logged. The lines of an input are read in order
and to its end. Only where a line cannot be read before one has quit, the session breaks off there,
without the farewell. -/
theorem session_determined_by_unit_commands (config : Config) (color : Bool) (input : String) :
    let lines := answeredLines input
    let unitAt := fun i => unitAfter config.angleUnit (lines.take i)
    let answers := lines.mapIdx fun i line => (execute config color ⟨unitAt i⟩ line).output
    ((CommandLine.execute config color input .repl).outcome =
      { status := if BreaksOff input then CommandLine.stopStatus else 0
        output := banner color ++ String.join (answers.filterMap fun answer =>
          answer.map (· ++ "\n")) ++ if BreaksOff input then "" else farewell }) ∧
    (∀ unit line, (execute config color ⟨unit⟩ line).engine = ⟨(unitCommand? line).getD unit⟩ ∧
      ((execute config color ⟨unit⟩ line).quits = true ↔ IsQuit line)) ∧
    (∀ unit line, line.toList.head? ≠ some ':' →
      execute config color ⟨unit⟩ line = ⟨false, some (answer config color ⟨unit⟩ line), ⟨unit⟩⟩) ∧
    (∀ input', readLines input' = readLines input →
      ((∃ line ∈ readLines input, TypesQuit line) ∨
        (Input.ofText input').breaksOff = (Input.ofText input).breaksOff) →
      CommandLine.execute config color input' .repl =
        CommandLine.execute config color input .repl) ∧
    ∀ typed : List String, (∀ line ∈ typed, '\n' ∉ line.toList ∧ '\x08' ∉ line.toList) →
      Input.ofText (String.join (typed.map (· ++ "\n"))) = ⟨typed, false⟩ := by
  intro lines unitAt answers
  refine ⟨?_, fun unit line => ⟨engine_execute .., quits_execute ..⟩,
    fun unit line => execute_of_not_colon color ⟨unit⟩,
    fun input' h hend => runSession_congr h (by rwa [h]), ofText_join⟩
  have hanswers : (stepsFor config color input).map Step.output = answers :=
    outputs_steps (usedLines input)
  simp only [CommandLine.execute, CommandLine.runSession, transcript, breaksOff_iff]
  rw [← hanswers, List.filterMap_map]
  rfl

/-- A session in which an expression after a command for the unit is answered in that unit, and what
follows the line that quits is not. -/
example : transcript .defaults false "sin(30)\n :rad\nsin(0)\n\n:q\n1+1\n" =
    "Tally calculator\nType ':help' for commands, Tab for completion\n\n" ++
      "= 0.5\nAngle unit: radians\n= 0\nBye!\n" := by
  decide +kernel

end Calculator.Session
