import Calculator.Config
import Calculator.Config.Variable

/-!
# Layers of configuration

How figment puts settings together. Each one is taken from the environment if it is given there,
else from the configuration file, else it has its default. What a higher layer covers is never
looked at, so a wrong value there does no harm. Unknown settings are ignored.
-/

namespace Calculator

/-- The files of the working directory, with their contents. -/
abbrev Files := List (String × String)

namespace Files

/-- Whether a part of a path stays in the same directory. -/
def stays (part : String) : Bool := part = "" || part = "."

/-- The parts of a path, without those that stay in the same directory. -/
def pathParts (path : String) : List String :=
  (path.splitOn "/").filter fun part => !stays part

/-- Whether a path names the working directory, the root or a directory above. -/
def isAbove (path : String) : Bool :=
  path ≠ "" && (pathParts path).all (· = "..")

/-- The contents of the file with the given path, which does not go on after the file. -/
def find? (files : Files) (path : String) : Option String :=
  let absolute := fun p : String => p.toList.head? == some '/'
  let samePath := fun p : String => absolute p == absolute path && pathParts p == pathParts path
  if (path.splitOn "/").getLast?.any stays then none
  else (List.find? (fun file => samePath file.1) files).map Prod.snd

end Files

namespace Config

/-- The configuration file that is read where none is named. -/
def defaultFile : String := "tally.yaml"

/-- The settings of a layer by name. Of several with one name the last counts. -/
abbrev Layer := List (String × Scalar)

/-- The value of a setting in a layer. -/
def Layer.get? (layer : Layer) (key : String) : Option Scalar :=
  (layer.reverse.find? fun entry => entry.1 = key).map Prod.snd

/-- A setting from the first layer that gives it, or else its default. -/
def setting {α : Type} (layers : List Layer) (key : String) (decode : Scalar → Option α)
    (default : α) : Except ConfigFailure α :=
  match layers.findSome? fun layer => layer.get? key with
  | none => .ok default
  | some value =>
    match decode value with
    | some a => .ok a
    | none => .error .unreadable

/-- The settings of layers, the higher ones first. -/
def ofLayers (layers : List Layer) : Except ConfigFailure Config := do
  let unit ← setting layers angleUnitKey (fun value => value.text?.bind AngleUnit.ofName?)
    defaults.angleUnit
  let precision ← setting layers precisionKey Scalar.word? defaults.precision
  let maxInputLength ← setting layers maxInputLengthKey Scalar.word? defaults.maxInputLength
  let logLevel ← setting layers logLevelKey Scalar.text? defaults.logLevel
  return ⟨unit, precision, maxInputLength, logLevel⟩

/-- The layer of a file with the given contents. -/
def fileLayer (contents : String) : Except ConfigFailure Layer :=
  match Yaml.mapping? contents with
  | some entries => .ok entries
  | none => .error .unreadable

/-- The layer of the configuration file: the named one, which has to exist, or else the default one
if there is one. -/
def readFile (files : Files) : Option String → Except ConfigFailure Layer
  | some path =>
    match files.find? path with
    | some contents => fileLayer contents
    | none => if Files.isAbove path then .ok [] else .error (.fileNotFound path)
  | none =>
    match files.find? defaultFile with
    | some contents => fileLayer contents
    | none => .ok []

/-- The valid configuration that files and environment give. -/
def load (files : Files) (path : Option String) (environment : List (String × String)) :
    Except ConfigFailure Config := do
  let file ← readFile files path
  let config ← ofLayers [environmentLayer environment, file]
  config.validate
  return config

end Config

end Calculator
