import Mathlib.Data.List.Nodup
import Mathlib.Data.List.Pairwise
import Calculator.Config.Layers
import Calculator.Proofs.Config.Variable
import Calculator.Proofs.Except

/-!
# Which value of a setting counts

Every setting has one value that wins: that of the variable for it, or else that of the file, or
else none, which leaves the default (`Wins`). Nothing but the winning values is decoded. A
configuration is loaded exactly if the four of them decode and are in range, and it holds just these
values (`load_eq_ok_iff`); two loads whose winners are the same lead to the same, also where they
fail (`load_congr`). So a value that a higher layer covers does no harm, whatever it is.

`Sources` says what is loaded from: a file that can be read, without a key that comes twice, and an
environment in which no two variables are for the same setting.
-/

namespace Calculator.Config

variable {α : Type} {files files' : Files} {path path' : Option String}
  {environment environment' : List (String × String)} {entries entries' : List (String × Scalar)}
  {key : String} {value : Scalar} {winner : Option Scalar} {config : Config}

/-! ## Sources and winners -/

/-- What the configuration file holds: the named file, or the default file, or nothing where there
is no default file. -/
inductive ReadsFile (files : Files) : Option String → List (String × Scalar) → Prop
  /-- The file with the given path. -/
  | named {path contents : String} {entries : List (String × Scalar)} :
      files.find? path = some contents → Yaml.mapping? contents = some entries →
      ReadsFile files (some path) entries
  /-- The default file. -/
  | byDefault {contents : String} {entries : List (String × Scalar)} :
      files.find? defaultFile = some contents → Yaml.mapping? contents = some entries →
      ReadsFile files none entries
  /-- No file. -/
  | absent : files.find? defaultFile = none → ReadsFile files none []

/-- Two variables are not for the same setting. -/
def AreApart (a b : String × String) : Prop := ∀ key, Names a.1 key → ¬ Names b.1 key

instance : Std.Symm AreApart := ⟨fun _ _ h key hb ha => h key ha hb⟩

/-- Variables with different names are not for the same setting. -/
theorem areApart_of_ne {a b : String × String}
    (h : Text.asciiLower (Text.trim a.1) ≠ Text.asciiLower (Text.trim b.1)) : AreApart a b :=
  fun _ ha hb => h (ha.trans hb.symm)

/-- What a configuration is loaded from. -/
structure Sources (files : Files) (path : Option String) (environment : List (String × String))
    (entries : List (String × Scalar)) : Prop where
  /-- The entries are those of the configuration file. -/
  file : ReadsFile files path entries
  /-- No key comes twice. -/
  keys : (entries.map Prod.fst).Nodup
  /-- Variables for settings have plain names. -/
  plain : ∀ entry ∈ environment, IsSetting entry.1 → IsPlainName entry.1
  /-- No two variables are for the same setting. -/
  apart : environment.Pairwise AreApart

/-- The value of a setting that counts: that of the variable for it, if there is one, else that of
the file, if it has one, else none. -/
inductive Wins (environment : List (String × String)) (entries : List (String × Scalar))
    (key : String) : Option Scalar → Prop
  /-- A variable is for the setting. -/
  | variable {entry : String × String} : entry ∈ environment → Names entry.1 key →
      Wins environment entries key (some (variableValue entry.2))
  /-- No variable is for it, but the file has it. -/
  | file {value : Scalar} : (∀ entry ∈ environment, ¬ Names entry.1 key) → (key, value) ∈ entries →
      Wins environment entries key (some value)
  /-- Neither a variable nor the file has it. -/
  | nothing : (∀ entry ∈ environment, ¬ Names entry.1 key) → (∀ value, (key, value) ∉ entries) →
      Wins environment entries key none

/-- What a winning value is decoded to: the default stands for no value. -/
def Decodes (decode : Scalar → Option α) (default : α) : Option Scalar → α → Prop
  | none, a => a = default
  | some value, a => decode value = some a

/-- The winning value of a setting decodes. -/
def Gives (environment : List (String × String)) (entries : List (String × Scalar)) (key : String)
    (decode : Scalar → Option α) (default a : α) : Prop :=
  ∃ winner, Wins environment entries key winner ∧ Decodes decode default winner a

/-- The unit that a value names. -/
def unit? (value : Scalar) : Option AngleUnit := value.text?.bind AngleUnit.ofName?

/-- The keys of the settings. -/
def settingKeys : List String := [angleUnitKey, precisionKey, maxInputLengthKey, logLevelKey]

/-! ## Layers -/

/-- A layer without a setting does not give it. -/
theorem Layer.get?_eq_none {layer : Layer} (h : ∀ value, (key, value) ∉ layer) :
    layer.get? key = none := by
  rw [get?, Option.map_eq_none_iff, List.find?_eq_none]
  rintro ⟨name, value⟩ hmem hname
  rw [decide_eq_true_eq] at hname
  subst hname
  exact h value (List.mem_reverse.1 hmem)

/-- A layer gives the value of a setting that it has once. -/
theorem Layer.get?_eq_some {layer : Layer} (hmem : (key, value) ∈ layer)
    (hunique : ∀ value', (key, value') ∈ layer → value' = value) :
    layer.get? key = some value := by
  rw [get?]
  cases hfound : layer.reverse.find? fun entry => entry.1 = key with
  | none =>
    rw [List.find?_eq_none] at hfound
    exact absurd (decide_eq_true rfl) (hfound _ (List.mem_reverse.2 hmem))
  | some entry =>
    have hkey : entry.1 = key := by simpa using List.find?_some hfound
    have hentry := List.mem_reverse.1 (List.mem_of_find?_eq_some hfound)
    subst hkey
    rw [Option.map_some, hunique entry.2 hentry]

/-- The layer of an environment in which no variable is for a setting. -/
theorem get?_environmentLayer_none
    (hplain : ∀ entry ∈ environment, IsSetting entry.1 → IsPlainName entry.1)
    (hlower : Text.asciiLower key = key) (hne : key ≠ "")
    (h : ∀ entry ∈ environment, ¬ Names entry.1 key) :
    Layer.get? (environmentLayer environment) key = none := by
  refine Layer.get?_eq_none fun value hmem => ?_
  obtain ⟨entry, hentry, hnames, -⟩ := (mem_environmentLayer_iff hplain hlower hne).1 hmem
  exact h entry hentry hnames

/-- The layer of an environment in which a variable is for a setting. -/
theorem get?_environmentLayer_some {entry : String × String}
    (hplain : ∀ entry ∈ environment, IsSetting entry.1 → IsPlainName entry.1)
    (hapart : environment.Pairwise AreApart)
    (hlower : Text.asciiLower key = key) (hne : key ≠ "") (hentry : entry ∈ environment)
    (hnames : Names entry.1 key) :
    Layer.get? (environmentLayer environment) key = some (variableValue entry.2) := by
  have hmem : (key, variableValue entry.2) ∈ environmentLayer environment ↔ _ :=
    mem_environmentLayer_iff hplain hlower hne
  refine Layer.get?_eq_some (hmem.2 ⟨entry, hentry, hnames, rfl⟩) fun value' hmem' => ?_
  obtain ⟨entry', hentry', hnames', rfl⟩ := (mem_environmentLayer_iff hplain hlower hne).1 hmem'
  by_contra hvalues
  have hentries : entry' ≠ entry := fun h => hvalues (h ▸ rfl)
  exact hapart.forall hentry' hentry hentries key hnames' hnames

/-- The value of a setting from the environment or else from the file. -/
def layered (environment : List (String × String)) (entries : List (String × Scalar))
    (key : String) : Option Scalar :=
  [environmentLayer environment, entries].findSome? fun layer => Layer.get? layer key

/-- The layers give the winner. -/
theorem Wins.layered_eq (h : Sources files path environment entries)
    (hlower : Text.asciiLower key = key) (hne : key ≠ "")
    (hwins : Wins environment entries key winner) : layered environment entries key = winner := by
  cases hwins with
  | «variable» hentry hnames =>
    rw [layered, List.findSome?_cons,
      get?_environmentLayer_some h.plain h.apart hlower hne hentry hnames]
  | file hnone hmem =>
    have hunique : ∀ value', (key, value') ∈ entries → value' = _ := fun value' hmem' =>
      congrArg Prod.snd (List.inj_on_of_nodup_map h.keys hmem' hmem rfl)
    rw [layered, List.findSome?_cons, get?_environmentLayer_none h.plain hlower hne hnone,
      List.findSome?_cons, Layer.get?_eq_some hmem hunique]
  | nothing hnone hfile =>
    rw [layered, List.findSome?_cons, get?_environmentLayer_none h.plain hlower hne hnone,
      List.findSome?_cons, Layer.get?_eq_none hfile, List.findSome?_nil]

/-- Every setting has a winner. -/
theorem exists_wins (environment : List (String × String)) (entries : List (String × Scalar))
    (key : String) : ∃ winner, Wins environment entries key winner := by
  by_cases hvariable : ∃ entry ∈ environment, Names entry.1 key
  · obtain ⟨entry, hentry, hnames⟩ := hvariable
    exact ⟨_, .variable hentry hnames⟩
  · have hnone : ∀ entry ∈ environment, ¬ Names entry.1 key := fun entry hentry hnames =>
      hvariable ⟨entry, hentry, hnames⟩
    by_cases hfile : ∃ value, (key, value) ∈ entries
    · obtain ⟨value, hmem⟩ := hfile
      exact ⟨_, .file hnone hmem⟩
    · exact ⟨_, .nothing hnone (not_exists.1 hfile)⟩

/-- The winner is what the layers give. -/
theorem wins_iff (h : Sources files path environment entries)
    (hlower : Text.asciiLower key = key) (hne : key ≠ "") :
    Wins environment entries key winner ↔ layered environment entries key = winner := by
  refine ⟨Wins.layered_eq h hlower hne, ?_⟩
  rintro rfl
  obtain ⟨winner, hwins⟩ := exists_wins environment entries key
  rwa [hwins.layered_eq h hlower hne]

/-! ## Decoding -/

/-- A setting is what its winner decodes to. -/
theorem setting_eq_ok_iff {layers : List Layer} {decode : Scalar → Option α} {default a : α} :
    setting layers key decode default = .ok a ↔
      Decodes decode default (layers.findSome? fun layer => layer.get? key) a := by
  rw [setting]
  cases layers.findSome? fun layer => layer.get? key with
  | none => exact ⟨fun h => (Except.ok.inj h).symm, fun h => congrArg Except.ok (Eq.symm h)⟩
  | some value =>
    rw [Decodes]
    cases hvalue : decode value <;> simp [hvalue]

/-- The settings of the environment and of the file are those to which the winners decode. -/
theorem ofLayers_eq_ok_iff :
    ofLayers [environmentLayer environment, entries] = .ok config ↔
      Decodes unit? defaults.angleUnit (layered environment entries angleUnitKey)
        config.angleUnit ∧
      Decodes Scalar.word? defaults.precision (layered environment entries precisionKey)
        config.precision ∧
      Decodes Scalar.word? defaults.maxInputLength
        (layered environment entries maxInputLengthKey) config.maxInputLength ∧
      Decodes Scalar.text? defaults.logLevel (layered environment entries logLevelKey)
        config.logLevel := by
  simp only [layered, ← setting_eq_ok_iff, ofLayers, bind_eq_ok]
  constructor
  · rintro ⟨unit, hunit, precision, hprecision, length, hlength, level, hlevel, hconfig⟩
    cases hconfig
    exact ⟨hunit, hprecision, hlength, hlevel⟩
  · rintro ⟨hunit, hprecision, hlength, hlevel⟩
    exact ⟨_, hunit, _, hprecision, _, hlength, _, hlevel, rfl⟩

/-- Settings are valid within their bounds. -/
theorem validate_eq_ok_iff (config : Config) : config.validate = .ok () ↔
    1 ≤ config.precision ∧ config.precision ≤ 17 ∧ 1 ≤ config.maxInputLength := by
  rw [validate]
  split
  · exact iff_of_false nofun (by omega)
  · split
    · exact iff_of_false nofun (by omega)
    · exact iff_of_true rfl (by omega)

/-! ## Loading -/

/-- The layer of the file is made of its entries. -/
theorem ReadsFile.readFile_eq (h : ReadsFile files path entries) :
    readFile files path = .ok entries := by
  cases h with
  | named hfind hmapping => simp only [readFile, hfind, fileLayer, hmapping]
  | byDefault hfind hmapping => simp only [readFile, hfind, fileLayer, hmapping]
  | absent hfind => simp only [readFile, hfind]

/-- The default file is found by its name. -/
theorem find?_defaultFile (contents : String) (others : Files) :
    Files.find? ((defaultFile, contents) :: others) defaultFile = some contents := by
  have hsplit : defaultFile.splitOn "/" = [defaultFile] :=
    splitOn_of_notMem '/' (by decide)
  have hparts : Files.pathParts defaultFile = [defaultFile] := by
    rw [Files.pathParts, hsplit]
    decide
  have hstays : ([defaultFile].getLast?.any Files.stays) = false := by decide
  rw [Files.find?, hsplit, hparts, hstays, if_neg Bool.false_ne_true, List.find?_cons_of_pos]
  · rfl
  · simp only [hparts, beq_self_eq_true, Bool.and_self]

/-- A configuration is put together from the two layers, and is checked. -/
theorem load_of_readsFile (h : ReadsFile files path entries)
    (environment : List (String × String)) : load files path environment =
      (ofLayers [environmentLayer environment, entries] >>= fun config =>
        config.validate >>= fun _ => .ok config) := by
  rw [load, h.readFile_eq]
  rfl

/-- The keys of the settings are in lower case. -/
theorem lower_of_mem_settingKeys (h : key ∈ settingKeys) :
    Text.asciiLower key = key ∧ key ≠ "" := by
  have hall : ∀ key ∈ settingKeys, Text.asciiLower key = key ∧ key ≠ "" := by decide
  exact hall key h

/-- A setting is given if what the layers give for it decodes. -/
theorem gives_iff (h : Sources files path environment entries) (hkey : key ∈ settingKeys)
    {decode : Scalar → Option α} {default a : α} :
    Gives environment entries key decode default a ↔
      Decodes decode default (layered environment entries key) a := by
  obtain ⟨hlower, hne⟩ := lower_of_mem_settingKeys hkey
  simp only [Gives, wins_iff h hlower hne, exists_eq_left']

/-- A configuration that is loaded has the winners for its settings, and is valid. -/
theorem load_eq_ok_iff (h : Sources files path environment entries) :
    load files path environment = .ok config ↔
      Gives environment entries angleUnitKey unit? defaults.angleUnit config.angleUnit ∧
      Gives environment entries precisionKey Scalar.word? defaults.precision config.precision ∧
      Gives environment entries maxInputLengthKey Scalar.word? defaults.maxInputLength
        config.maxInputLength ∧
      Gives environment entries logLevelKey Scalar.text? defaults.logLevel config.logLevel ∧
      config.validate = .ok () := by
  rw [gives_iff h (by decide), gives_iff h (by decide), gives_iff h (by decide),
    gives_iff h (by decide), load_of_readsFile h.file, bind_eq_ok]
  constructor
  · rintro ⟨loaded, hloaded, hvalid⟩
    obtain ⟨⟨⟩, hvalid, hconfig⟩ := bind_eq_ok.1 hvalid
    cases hconfig
    obtain ⟨hunit, hprecision, hlength, hlevel⟩ := ofLayers_eq_ok_iff.1 hloaded
    exact ⟨hunit, hprecision, hlength, hlevel, hvalid⟩
  · rintro ⟨hunit, hprecision, hlength, hlevel, hvalid⟩
    exact ⟨config, ofLayers_eq_ok_iff.2 ⟨hunit, hprecision, hlength, hlevel⟩, by rw [hvalid]; rfl⟩

/-- What loading leads to depends on the winners alone. -/
theorem load_congr (h : Sources files path environment entries)
    (h' : Sources files' path' environment' entries')
    (hwins : ∀ key ∈ settingKeys, ∀ winner,
      Wins environment entries key winner ↔ Wins environment' entries' key winner) :
    load files path environment = load files' path' environment' := by
  have hlayered : ∀ key ∈ settingKeys,
      layered environment entries key = layered environment' entries' key := by
    intro key hkey
    obtain ⟨hlower, hne⟩ := lower_of_mem_settingKeys hkey
    have hwinner := (wins_iff h' hlower hne).2 rfl
    exact (wins_iff h hlower hne).1 ((hwins key hkey _).2 hwinner)
  have hsetting : ∀ {α : Type} (key) (decode : Scalar → Option α) (default : α),
      key ∈ settingKeys → setting [environmentLayer environment, entries] key decode default =
        setting [environmentLayer environment', entries'] key decode default := by
    intro α key decode default hkey
    have hvalue := hlayered key hkey
    rw [layered, layered] at hvalue
    rw [setting, setting, hvalue]
  rw [load_of_readsFile h.file, load_of_readsFile h'.file, ofLayers, ofLayers,
    hsetting angleUnitKey _ _ (by decide), hsetting precisionKey _ _ (by decide),
    hsetting maxInputLengthKey _ _ (by decide), hsetting logLevelKey _ _ (by decide)]

/-- What a file holds for settings that variables are for makes no difference. -/
theorem wins_congr_of_covered
    (h : (∀ entry ∈ environment, ¬ Names entry.1 key) →
      ∀ value, (key, value) ∈ entries' ↔ (key, value) ∈ entries) :
    Wins environment entries key winner ↔ Wins environment entries' key winner := by
  constructor
  · rintro (⟨hentry, hnames⟩ | ⟨hnone, hmem⟩ | ⟨hnone, hfile⟩)
    · exact .variable hentry hnames
    · exact .file hnone ((h hnone _).2 hmem)
    · exact .nothing hnone fun value hmem => hfile value ((h hnone value).1 hmem)
  · rintro (⟨hentry, hnames⟩ | ⟨hnone, hmem⟩ | ⟨hnone, hfile⟩)
    · exact .variable hentry hnames
    · exact .file hnone ((h hnone _).1 hmem)
    · exact .nothing hnone fun value hmem => hfile value ((h hnone value).2 hmem)

/-- **Every setting is decoded from the highest layer that gives it.** A configuration is loaded
exactly if, for each of the four settings by itself, the value that wins decodes, and the precision
and the bound on the length are in range; it holds just these values, and it is valid. Whatever else
the layers hold has no influence: two loads with the same winners have the same result, and so have
two files that agree on the settings for which there is no variable, whatever they give for the
others and for unknown keys. -/
theorem load_decodes_winners (h : Sources files path environment entries) :
    (∀ config, load files path environment = .ok config ↔
      Gives environment entries angleUnitKey unit? defaults.angleUnit config.angleUnit ∧
      Gives environment entries precisionKey Scalar.word? defaults.precision config.precision ∧
      Gives environment entries maxInputLengthKey Scalar.word? defaults.maxInputLength
        config.maxInputLength ∧
      Gives environment entries logLevelKey Scalar.text? defaults.logLevel config.logLevel ∧
      (1 ≤ config.precision ∧ config.precision ≤ 17) ∧ 1 ≤ config.maxInputLength) ∧
    (∀ config, load files path environment = .ok config → config.validate = .ok ()) ∧
    (∀ files' path' environment' entries', Sources files' path' environment' entries' →
      (∀ key ∈ settingKeys, ∀ winner,
        Wins environment entries key winner ↔ Wins environment' entries' key winner) →
      load files path environment = load files' path' environment') ∧
    ∀ files' path' entries', Sources files' path' environment entries' →
      (∀ key ∈ settingKeys, (∀ entry ∈ environment, ¬ Names entry.1 key) →
        ∀ value, (key, value) ∈ entries' ↔ (key, value) ∈ entries) →
      load files path environment = load files' path' environment := by
  refine ⟨fun config => ?_, fun config hload => ?_,
    fun files' path' environment' entries' h' hwins => load_congr h h' hwins,
    fun files' path' entries' h' hagree =>
      load_congr h h' fun key hkey winner => wins_congr_of_covered (hagree key hkey)⟩
  · rw [load_eq_ok_iff h, validate_eq_ok_iff, and_assoc]
  · obtain ⟨-, -, -, -, hvalid⟩ := (load_eq_ok_iff h).1 hload
    exact hvalid

/-- A precision that is out of range and a unit that is no unit do no harm under variables, in any
case of letters, that cover them. -/
theorem load_covered_settings :
    load [(defaultFile, "angle_unit: 7\nprecision: 40\nlog_level: warn\ncolour: red\n")] none
      [("TALLY_PRECISION", "6"), ("HOME", "/root"), ("tally_Angle_Unit", "radians")] =
      .ok ⟨.radians, 6, 1024, "warn"⟩ := by
  have hmapping : Yaml.mapping? "angle_unit: 7\nprecision: 40\nlog_level: warn\ncolour: red\n" =
      some [("angle_unit", .integer 7), ("precision", .integer 40), ("log_level", .text "warn"),
        ("colour", .text "red")] := by decide +kernel
  have hfile := ReadsFile.byDefault (find?_defaultFile _ []) hmapping
  have hplain : ∀ entry ∈ [("TALLY_PRECISION", "6"), ("HOME", "/root"),
      ("tally_Angle_Unit", "radians")], IsPlainName entry.1 := by decide +kernel
  have hapart : [("TALLY_PRECISION", "6"), ("HOME", "/root"),
      ("tally_Angle_Unit", "radians")].Pairwise AreApart :=
    List.Pairwise.imp areApart_of_ne (by decide)
  have hwinners := load_decodes_winners
    ⟨hfile, by decide, fun entry hentry _ => hplain entry hentry, hapart⟩
  refine (hwinners.1 _).2 ⟨?_, ?_, ?_, ?_, ?_⟩
  · have hdecodes : unit? (variableValue "radians") = some .radians := by decide +kernel
    have hmem : ("tally_Angle_Unit", "radians") ∈ [("TALLY_PRECISION", "6"), ("HOME", "/root"),
      ("tally_Angle_Unit", "radians")] := by decide
    exact ⟨_, .variable hmem (by decide), hdecodes⟩
  · have hdecodes : Scalar.word? (variableValue "6") = some 6 := by decide +kernel
    exact ⟨_, .variable List.mem_cons_self (by decide), hdecodes⟩
  · exact ⟨_, .nothing (by decide) (by simp [maxInputLengthKey]), rfl⟩
  · exact ⟨some (.text "warn"), .file (by decide) (by decide), rfl⟩
  · decide

end Calculator.Config
