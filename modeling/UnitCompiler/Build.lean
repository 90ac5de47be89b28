import UnitCompiler.Output
import UnitCompiler.Sources

/-!
# Building a directory

All units of a source directory are compiled and their artifacts written to an output directory.
-/

namespace UnitCompiler

/-- Why a build stopped. -/
inductive BuildError where
  | settings (error : SettingsError)
  /-- The output of a unit could not be written. -/
  | output (path : String) (error : ImageError)
  deriving DecidableEq, Repr

/-- The messages of an error, the outermost first. -/
def BuildError.chain : BuildError → List String
  | .settings error => [error.message]
  | .output path error => s!"Failed to write output of {path}" :: error.chain

structure BuildResult where
  summary : Summary
  /-- How many units have output. -/
  compiled : Nat
  /-- The paths of the artifacts. -/
  written : List String
  deriving DecidableEq, Repr

/-- What a build leaves behind, whether it stopped or not. -/
structure Build where
  result : Except BuildError BuildResult
  records : List Record := []
  tree : FileTree

namespace Build

def settingsName : String := "firefly.toml"

/-- The settings of a source directory: those in a given file, or else in the directory itself, if
there are any. -/
def loadSettings (t : FileTree) (source : String) (explicit : Option String) :
    Except SettingsError Settings :=
  let candidate := Path.join source settingsName
  match explicit, t.isFile candidate with
  | none, false => .ok {}
  | _, _ =>
    let path := explicit.getD candidate
    match t.readText path with
    | .error e => .error (.unreadable path e.message)
    | .ok text => Settings.parse text

/-- Writes the artifacts of units in order. -/
def writeUnits (t : FileTree) (output : String) :
    List CompiledUnit → Except BuildError (List String) × FileTree
  | [] => (.ok [], t)
  | unit :: rest =>
    match Output.write t output unit.artifacts with
    | (.error e, t) => (.error (.output unit.declared.unit.displayPath e), t)
    | (.ok paths, t) =>
      match writeUnits t output rest with
      | (.error e, t) => (.error e, t)
      | (.ok more, t) => (.ok (paths ++ more), t)

def run (toolchain : Toolchain) (t : FileTree) (source output : String) (settings : Settings) :
    Build :=
  match compileInput toolchain settings (Sources.discover t source) with
  | .error e => { result := .error (.settings e), tree := t }
  | .ok outcome =>
    let (written, tree) := writeUnits t output outcome.units
    { result := written.map fun written => ⟨outcome.summary, outcome.units.length, written⟩
      records := outcome.records
      tree }

end Build

end UnitCompiler
