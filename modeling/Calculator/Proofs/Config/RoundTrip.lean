import Calculator.Proofs.Config.Layers
import Calculator.Proofs.Yaml.Lines

/-!
# A printed configuration loads back

The four lines of a printed configuration are lines of a mapping (`yamlLines`), whatever single line
of text the setting for the log is, so a file that holds them gives the settings themselves
(`mapping?_yaml`). Where no variable is for a setting, they win, and the configuration is loaded as
it was printed (`load_yaml`).
-/

namespace Calculator

open Yaml

/-- The name of a unit is read back as a text. -/
theorem AngleUnit.isWritten_name (unit : AngleUnit) :
    IsWritten unit.name.toList (.text unit.name) := by
  have hname : unit.name.toList ≠ [] ∧ unit.name.toList.all isWordChar = true ∧
      ofPlain unit.name.toList = .text unit.name := by
    cases unit <;> decide +kernel
  obtain ⟨hne, hword, hself⟩ := hname
  have hword := List.all_eq_true.1 hword
  have hwritten := (isPlainLine_of_isWordChar hne hword).isWritten
    fun c hc => (isInert_of_isWordChar (hword c hc)).printable
  rwa [hself] at hwritten

/-- A unit is spelled by its name. -/
theorem AngleUnit.ofName?_name (unit : AngleUnit) : ofName? unit.name = some unit := by
  cases unit <;> rfl

namespace Config

variable {files : Files} {path : Option String} {environment : List (String × String)}
  {config : Config}

/-- The settings can be printed on a line each. -/
structure FitsLines (config : Config) : Prop where
  /-- The precision has at most 128 bits. -/
  precision : config.precision < 2 ^ 128
  /-- So has the bound on the length of expressions. -/
  maxInputLength : config.maxInputLength < 2 ^ 128
  /-- The setting for the log is a text of one line. -/
  logLevel : ∀ c ∈ config.logLevel.toList, isBreak c = false

/-- The keys of the settings are words. -/
theorem isKey_of_mem_settingKeys {key : String} (h : key ∈ settingKeys) : IsKey key := by
  have hall : ∀ key ∈ settingKeys, key.toList ≠ [] ∧ key.toList.all isWordChar = true ∧
      key.toList.length ≤ keyLimit := by decide
  obtain ⟨hne, hword, hshort⟩ := hall key h
  exact ⟨hne, List.all_eq_true.1 hword, hshort⟩

/-- The lines of a printed configuration. -/
def FitsLines.lines (h : FitsLines config) : List Line :=
  [⟨angleUnitKey, _, _, isKey_of_mem_settingKeys (by decide), config.angleUnit.isWritten_name⟩,
    ⟨precisionKey, _, _, isKey_of_mem_settingKeys (by decide), isWritten_numeral h.precision⟩,
    ⟨maxInputLengthKey, _, _, isKey_of_mem_settingKeys (by decide),
      isWritten_numeral h.maxInputLength⟩,
    ⟨logLevelKey, _, _, isKey_of_mem_settingKeys (by decide), isWritten_scalarChars h.logLevel⟩]

/-- The settings of a configuration as entries. -/
def settings (config : Config) : List (String × Scalar) :=
  [(angleUnitKey, .text config.angleUnit.name), (precisionKey, .integer config.precision),
    (maxInputLengthKey, .integer config.maxInputLength), (logLevelKey, .text config.logLevel)]

/-- A printed configuration is a mapping with its settings. -/
theorem mapping?_yaml (h : FitsLines config) : mapping? config.yaml = some config.settings := by
  have hchars : config.yamlChars = h.lines.flatMap Line.chars := by
    simp [yamlChars, FitsLines.lines, Line.chars]
  have hsettings : h.lines.map (fun line => (line.key, line.value)) = config.settings := by
    simp [FitsLines.lines, settings]
  rw [yaml, hchars, mapping?_lines, hsettings]

/-- A file that is named, or the default file, is read. -/
theorem readsFile_of_find? {contents : String} {entries : List (String × Scalar)}
    (hfile : files.find? (path.getD defaultFile) = some contents)
    (hmapping : mapping? contents = some entries) : ReadsFile files path entries := by
  cases path with
  | none => exact .byDefault hfile hmapping
  | some path => exact .named hfile hmapping

/-- **A printed configuration loads back.** A valid configuration whose setting for the log is a
text of one line is loaded as it is from a file that holds it in print, whatever that text is, if no
variable of the environment is for a setting. -/
theorem load_yaml (hvalid : config.validate = .ok ()) (hlength : config.maxInputLength < 2 ^ 64)
    (hlevel : ∀ c ∈ config.logLevel.toList, isBreak c = false)
    (hfile : files.find? (path.getD defaultFile) = some config.yaml)
    (henvironment : ∀ entry ∈ environment, ¬ IsSetting entry.1) :
    load files path environment = .ok config := by
  obtain ⟨hlow, hhigh, -⟩ := (validate_eq_ok_iff config).1 hvalid
  have hfits : FitsLines config := ⟨by omega, by omega, hlevel⟩
  have hsources : Sources files path environment config.settings := by
    refine ⟨readsFile_of_find? hfile (mapping?_yaml hfits), ?_, ?_, ?_⟩
    · exact (by decide : settingKeys.Nodup)
    · exact fun entry hentry hset => absurd hset (henvironment entry hentry)
    · exact List.pairwise_of_forall_mem_list fun a ha b _ key hnames =>
        absurd ⟨key, hnames⟩ (henvironment a ha)
  have hgives : ∀ {α : Type} {key : String} (value : Scalar) {decode : Scalar → Option α}
      {default a : α}, (key, value) ∈ config.settings → decode value = some a →
        Gives environment config.settings key decode default a := fun value _ _ _ hmem hdecode =>
    ⟨_, .file (fun entry hentry hnames => henvironment entry hentry ⟨_, hnames⟩) hmem, hdecode⟩
  have hword : ∀ n : Nat, n < 2 ^ 64 → Scalar.word? (.integer n) = some n := by
    intro n hn
    rw [Scalar.word?, if_pos ⟨Int.natCast_nonneg n, by exact_mod_cast hn⟩, Int.toNat_natCast]
  rw [load_eq_ok_iff hsources]
  refine ⟨hgives (.text config.angleUnit.name) (by simp [settings]) ?_,
    hgives (.integer config.precision) (by simp [settings]) (hword _ (by omega)),
    hgives (.integer config.maxInputLength) (by simp [settings]) (hword _ hlength),
    hgives (.text config.logLevel) (by simp [settings]) rfl, hvalid⟩
  exact config.angleUnit.ofName?_name

/-- The longest bound on the length and a setting for the log that is full of marks load back. -/
theorem load_yaml_marks :
    let config : Config := ⟨.radians, 17, 2 ^ 64 - 1, "null: 'no' # \"1e5\" ~"⟩
    load [(defaultFile, config.yaml)] none [("HOME", "/root")] = .ok config := by
  intro config
  have henvironment : ∀ entry ∈ [("HOME", "/root")], ¬ IsSetting entry.1 := by
    intro entry hentry
    rw [List.mem_singleton.1 hentry, isSetting_iff]
    decide +kernel
  have hlevel : config.logLevel.toList.all (fun c => !isBreak c) = true := by decide
  exact load_yaml (by decide) (by decide) (by simpa using List.all_eq_true.1 hlevel)
    (find?_defaultFile _ []) henvironment

end Config

end Calculator
