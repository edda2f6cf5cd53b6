import Calculator.CommandLine.Arguments
import Calculator.Proofs.Except

/-!
# The options before the command

Which options an argument gives does not depend on what has been read before it. So reading the
arguments before the command comes to two things: the arguments are taken apart into single notes
(`split`), and these are made one after the other (`read_programGrammar`). Arguments that are
options as a whole can be put before others, and their notes come first (`split_append`). A switch
that is noted anywhere among other notes makes no difference but for itself (`foldlM_add_insert`).
-/

namespace Calculator.CommandLine

variable {g : Grammar} {r r' : Reading} {argument : String} {arguments front back : List String}
  {notes : List Note} {waiting : Option Setting} {fuel : Nat} {text : String} {rest : List String}

/-! ## Notes -/

/-- What is to be noted about the options before the command. -/
inductive Note where
  /-- An option without a value. -/
  | switch (s : Switch)
  /-- An option with its value. -/
  | setting (s : Setting) (value : String)
  /-- Something that does not fit. -/
  | misfit
  deriving DecidableEq

/-- Notes something in addition to what has been read. -/
def Note.add (r : Reading) : Note → Except Stop Reading
  | switch s => r.addSwitch s
  | setting s value => r.addSetting s value
  | misfit => .error .usage

/-- The note that an argument gives as the value of a setting. -/
def valueNote (s : Setting) (argument : String) : Note :=
  if isValue argument then .setting s argument else .misfit

/-- The notes that a long name gives, and the setting that waits for its value in the next argument,
if there is one. -/
def longNotes (options : List OptionName) (text : String) : List Note × Option Setting :=
  match options.find? fun o => o.long = String.ofList (text.toList.takeWhile (· != '=')) with
  | none => ([.misfit], none)
  | some option =>
    match option.kind, text.toList.dropWhile (· != '=') with
    | .switch s, [] => ([.switch s], none)
    | .switch _, _ => ([.misfit], none)
    | .setting s, [] => ([], some s)
    | .setting s, _ :: value => ([.setting s (String.ofList value)], none)

/-- The notes that short names give, and the setting that waits for its value in the next argument,
if there is one. -/
def shortNotes (options : List OptionName) : List Char → List Note × Option Setting
  | [] => ([], none)
  | c :: letters =>
    match options.find? fun o => o.short = some c with
    | none => ([.misfit], none)
    | some option =>
      match option.kind with
      | .switch s =>
        let others := shortNotes options letters
        (.switch s :: others.1, others.2)
      | .setting s =>
        match letters with
        | [] => ([], some s)
        | '=' :: value => ([.setting s (String.ofList value)], none)
        | value => ([.setting s (String.ofList value)], none)

/-- The notes that an argument before the command gives, unless it is the command. -/
def argumentNotes? (argument : String) : Option (List Note × Option Setting) :=
  match argument.toList with
  | ['-', '-'] => some ([.misfit], none)
  | '-' :: '-' :: text => some (longNotes programGrammar.options (String.ofList text))
  | '-' :: c :: letters => some (shortNotes programGrammar.options (c :: letters))
  | _ => none

/-- A command line, taken apart. -/
structure Split where
  /-- The notes that the options before the command give. -/
  notes : List Note
  /-- The setting that waits for its value at the end. -/
  waiting : Option Setting
  /-- The command and what follows it. -/
  command : List String
  deriving DecidableEq

/-- Takes a command line apart from an argument on, which can be the value of a setting that waits
for it. -/
def split (waiting : Option Setting) : List String → Split
  | [] => ⟨[], waiting, []⟩
  | argument :: rest =>
    match waiting with
    | some s =>
      let others := split none rest
      { others with notes := valueNote s argument :: others.notes }
    | none =>
      match argumentNotes? argument with
      | none => ⟨[], none, argument :: rest⟩
      | some (notes, waiting) =>
        let others := split waiting rest
        { others with notes := notes ++ others.notes }

/-- Ends the reading of the options: no setting may wait for its value, and the command is noted. -/
def Split.finish (p : Split) (r : Reading) : Except Stop Reading :=
  match p.waiting, p.command with
  | some _, _ => .error .usage
  | none, [] => .ok r
  | none, command :: rest => .ok { r with others := r.others ++ [command], rest }

/-! ## Reading is noting -/

/-- Lets a setting that waits for its value have it. -/
def giveValue (waiting : Option Setting) (r : Reading) (rest : List String) :
    Except Stop (Reading × List String) :=
  match waiting with
  | none => .ok (r, rest)
  | some s => readValue r s rest

/-- A long name is read by making its notes. -/
theorem readLong_eq : readLong g r text rest =
    (longNotes g.options text).1.foldlM Note.add r >>= fun r =>
      giveValue (longNotes g.options text).2 r rest := by
  rw [readLong, longNotes]
  cases g.options.find? fun o => o.long = String.ofList (text.toList.takeWhile (· != '=')) with
  | none => rfl
  | some option =>
    obtain ⟨-, -, kind⟩ := option
    cases kind with
    | switch s =>
      cases text.toList.dropWhile (· != '=') with
      | nil =>
        simp only [List.foldlM_cons, List.foldlM_nil, bind_pure]
        rfl
      | cons _ value => rfl
    | setting s =>
      cases text.toList.dropWhile (· != '=') with
      | nil => rfl
      | cons _ value =>
        simp only [List.foldlM_cons, List.foldlM_nil, bind_pure]
        rfl

/-- Short names are read by making their notes. -/
theorem readShort_eq (letters : List Char) : readShort g r rest letters =
    (shortNotes g.options letters).1.foldlM Note.add r >>= fun r =>
      giveValue (shortNotes g.options letters).2 r rest := by
  induction letters generalizing r with
  | nil => rfl
  | cons c letters ih =>
    rw [readShort, shortNotes]
    cases g.options.find? fun o => o.short = some c with
    | none => rfl
    | some option =>
      obtain ⟨-, -, kind⟩ := option
      cases kind with
      | switch s =>
        simp only [List.foldlM_cons, Note.add, bind_assoc]
        exact bind_congr fun r => ih
      | setting s =>
        simp only
        split
        · rfl
        · simp only [List.foldlM_cons, List.foldlM_nil, bind_pure]
          rfl
        · simp only [List.foldlM_cons, List.foldlM_nil, bind_pure]
          rfl

/-- An argument that is an option is read by making its notes. -/
theorem read_option (h : argumentNotes? argument = some (notes, waiting)) :
    read programGrammar (fuel + 1) r (argument :: rest) =
      (notes.foldlM Note.add r >>= fun r => giveValue waiting r rest) >>= fun given =>
        read programGrammar fuel given.1 given.2 := by
  unfold argumentNotes? at h
  split at h
  · rename_i hchars
    cases h
    rw [read]
    simp only [hchars]
    rfl
  · rename_i text hne hchars
    rw [read]
    simp only [hchars]
    rw [readLong_eq, Option.some.inj h]
  · rename_i c letters _ _ hchars
    have hnumbers : (programGrammar.numbers && isNumber (c :: letters)) = false := rfl
    rw [read]
    simp only [hchars, hnumbers, if_neg Bool.false_ne_true]
    rw [readShort_eq, Option.some.inj h]
  · cases h

/-- The command ends the reading of the options. -/
theorem read_command (h : argumentNotes? argument = none) :
    read programGrammar (fuel + 1) r (argument :: rest) =
      .ok { r with others := r.others ++ [argument], rest } := by
  unfold argumentNotes? at h
  split at h
  · cases h
  · cases h
  · cases h
  · rename_i hends hlong hshort
    rw [read]
    split
    · exact (hends ‹_›).elim
    · exact (hlong _ ‹_›).elim
    · exact (hshort _ _ ‹_›).elim
    · rfl

/-- A switch that can be noted was not there. -/
theorem addSwitch_eq_ok {s : Switch} (h : r.addSwitch s = .ok r') :
    s ∉ r.switches ∧ r' = { r with switches := s :: r.switches } := by
  unfold Reading.addSwitch at h
  split at h
  · cases h
  · cases h
  · split at h
    · cases h
    · cases h
      exact ⟨‹_›, rfl⟩

/-- The value of a setting is added to the others. -/
theorem addSetting_eq_ok {s : Setting} {value : String} (h : r.addSetting s value = .ok r') :
    r' = { r with settings := (s, value) :: r.settings } := by
  unfold Reading.addSetting at h
  split at h
  · cases h
  · cases s with
    | config =>
      cases h
      rfl
    | angleUnit =>
      simp only at h
      split at h
      · exact (Except.ok.inj h).symm
      · cases h

/-- Notes leave alone what has not been looked at. -/
theorem rest_of_foldlM_add (h : notes.foldlM Note.add r = .ok r') : r'.rest = r.rest := by
  induction notes generalizing r with
  | nil =>
    cases h
    rfl
  | cons note notes ih =>
    obtain ⟨r'', hadd, hothers⟩ := bind_eq_ok.1 h
    rw [ih hothers]
    cases note with
    | switch s => rw [(addSwitch_eq_ok hadd).2]
    | setting s value => rw [addSetting_eq_ok hadd]
    | misfit => cases hadd

/-- A setting that waits for its value takes the next argument, whose note comes first. -/
theorem giveValue_bind (others : Reading → List String → Except Stop Reading)
    (hothers : ∀ r' rest', r'.rest = [] → rest'.length ≤ rest.length → others r' rest' =
      (split none rest').notes.foldlM Note.add r' >>= (split none rest').finish)
    (hrest : r.rest = []) :
    (giveValue waiting r rest >>= fun given => others given.1 given.2) =
      (split waiting rest).notes.foldlM Note.add r >>= (split waiting rest).finish := by
  cases waiting with
  | none => exact hothers r rest hrest (Nat.le_refl _)
  | some s =>
    cases rest with
    | nil => rfl
    | cons value rest =>
      simp only [giveValue, readValue, split, valueNote, List.foldlM_cons]
      split
      · simp only [Note.add, bind_assoc]
        cases hadd : r.addSetting s value with
        | error stop => rfl
        | ok r' =>
          have hrest' : r'.rest = [] := by
            rw [addSetting_eq_ok hadd]
            exact hrest
          exact hothers r' rest hrest' (Nat.le_succ _)
      · rfl

/-- **The options before the command are read by making their notes in order.** -/
theorem read_programGrammar (hfuel : arguments.length ≤ fuel) (hrest : r.rest = []) :
    read programGrammar fuel r arguments =
      (split none arguments).notes.foldlM Note.add r >>= (split none arguments).finish := by
  -- A setting takes its value along in the same step, so the induction is on the steps and not on
  -- the arguments.
  induction fuel generalizing r arguments with
  | zero =>
    obtain rfl := List.length_eq_zero_iff.1 (Nat.le_zero.1 hfuel)
    obtain ⟨switches, settings, others, _⟩ := r
    obtain rfl : _ = [] := hrest
    rfl
  | succ fuel ih =>
    cases arguments with
    | nil => rfl
    | cons argument rest =>
      rw [List.length_cons, Nat.succ_le_succ_iff] at hfuel
      cases hnotes : argumentNotes? argument with
      | none =>
        rw [read_command hnotes]
        simp only [split, hnotes]
        rfl
      | some option =>
        obtain ⟨notes, waiting⟩ := option
        rw [read_option hnotes]
        simp only [split, hnotes, List.foldlM_append, bind_assoc]
        cases hread : notes.foldlM Note.add r with
        | error stop => rfl
        | ok r' =>
          have hrest' : r'.rest = [] := (rest_of_foldlM_add hread).trans hrest
          rw [ok_bind, ok_bind]
          exact giveValue_bind (read programGrammar fuel)
            (fun r rest' hr hlength => ih (Nat.le_trans hlength hfuel) hr) hrest'

/-- Arguments that are options as a whole: no command is among them, and no setting still waits for
its value. -/
def IsOptions (arguments : List String) : Prop :=
  (split none arguments).waiting = none ∧ (split none arguments).command = []

instance : DecidablePred IsOptions := fun _ => inferInstanceAs (Decidable (_ ∧ _))

/-- The notes of options come before those of the arguments after them. -/
theorem split_append (hwaiting : (split waiting front).waiting = none)
    (hcommand : (split waiting front).command = []) (back : List String) :
    split waiting (front ++ back) =
      { split none back with notes := (split waiting front).notes ++ (split none back).notes } := by
  induction front generalizing waiting with
  | nil =>
    obtain rfl : waiting = none := hwaiting
    rfl
  | cons argument front ih =>
    cases waiting with
    | some s =>
      simp only [List.cons_append, split] at *
      rw [ih hwaiting hcommand]
    | none =>
      cases hnotes : argumentNotes? argument with
      | none =>
        simp [split, hnotes] at hcommand
      | some option =>
        simp only [List.cons_append, split, hnotes, List.append_assoc] at *
        rw [ih hwaiting hcommand]

/-! ## One switch more -/

variable {s : Switch} {first second : List Note}

/-- A reading has a switch more than another one, and is the same apart from that. -/
structure HasMore (s : Switch) (r r' : Reading) : Prop where
  /-- The switch is there in addition to the others. -/
  switches : ∀ t, t ∈ r'.switches ↔ t = s ∨ t ∈ r.switches
  /-- The settings are the same. -/
  settings : r'.settings = r.settings
  /-- The other arguments are the same. -/
  others : r'.others = r.others
  /-- The same arguments have not been looked at. -/
  rest : r'.rest = r.rest

/-- A note of something else leads to the same, with and without the switch. -/
theorem add_alike {note : Note} (h : HasMore s r r') (hnote : note ≠ .switch s) :
    Alike (HasMore s) (note.add r) (note.add r') := by
  cases note with
  | switch t =>
    have hts : t ≠ s := fun hts => hnote (hts ▸ rfl)
    have hmem : t ∈ r'.switches ↔ t ∈ r.switches := by simp [h.switches, hts]
    simp only [Note.add, Reading.addSwitch]
    split
    · exact .error _
    · exact .error _
    · simp only [hmem]
      split
      · exact .error _
      · refine .ok ⟨fun t' => ?_, h.settings, h.others, h.rest⟩
        simp only [List.mem_cons, h.switches, or_left_comm]
  | setting t value =>
    have hmore : HasMore s { r with settings := (t, value) :: r.settings }
        { r' with settings := (t, value) :: r'.settings } :=
      ⟨h.switches, by rw [h.settings], h.others, h.rest⟩
    simp only [Note.add, Reading.addSetting, h.settings] at hmore ⊢
    split
    · exact .error _
    · cases t with
      | config => exact .ok hmore
      | angleUnit =>
        cases AngleUnit.read value with
        | ok _ => exact .ok hmore
        | error _ => exact .error _
  | misfit => exact .error _

/-- Notes of other things lead to the same, with and without the switch. -/
theorem foldlM_add_alike (h : HasMore s r r') (hnotes : .switch s ∉ notes) :
    Alike (HasMore s) (notes.foldlM Note.add r) (notes.foldlM Note.add r') := by
  induction notes generalizing r r' with
  | nil => exact .ok h
  | cons note notes ih =>
    rw [List.mem_cons, not_or] at hnotes
    exact (add_alike h (Ne.symm hnotes.1)).bind fun _ _ h => ih h hnotes.2

/-- A note of something else does not add the switch. -/
theorem notMem_switches_of_add {note : Note} (hadd : note.add r = .ok r') (hnote : note ≠ .switch s)
    (h : s ∉ r.switches) : s ∉ r'.switches := by
  cases note with
  | switch t =>
    have hts : s ≠ t := fun hts => hnote (hts ▸ rfl)
    rw [(addSwitch_eq_ok hadd).2]
    simp [hts, h]
  | setting t value =>
    rw [addSetting_eq_ok hadd]
    exact h
  | misfit => cases hadd

/-- Wherever among other notes the switch is noted, the reading has it more at the end. -/
theorem foldlM_add_insert (hstops : s ≠ .help ∧ s ≠ .version) (h : s ∉ r.switches)
    (hnotes : .switch s ∉ first ++ second) :
    Alike (HasMore s) ((first ++ second).foldlM Note.add r)
      ((first ++ .switch s :: second).foldlM Note.add r) := by
  induction first generalizing r with
  | nil =>
    have hadd : (Note.switch s).add r = .ok { r with switches := s :: r.switches } := by
      simp [Note.add, Reading.addSwitch, hstops, h]
    rw [List.nil_append, List.nil_append, List.foldlM_cons, hadd]
    exact foldlM_add_alike ⟨fun t => List.mem_cons, rfl, rfl, rfl⟩ hnotes
  | cons note first ih =>
    rw [List.cons_append, List.mem_cons, not_or] at hnotes
    rw [List.cons_append, List.cons_append, List.foldlM_cons, List.foldlM_cons]
    cases hadd : note.add r with
    | error stop => exact .error stop
    | ok r' => exact ih (notMem_switches_of_add hadd (Ne.symm hnotes.1) h) hnotes.2

/-- The command is noted in the same way, with and without the switch. -/
theorem finish_alike (h : HasMore s r r') (p : Split) :
    Alike (HasMore s) (p.finish r) (p.finish r') := by
  unfold Split.finish
  split
  · exact .error _
  · exact .ok h
  · exact .ok ⟨h.switches, h.settings, by rw [h.others], rfl⟩

end Calculator.CommandLine
