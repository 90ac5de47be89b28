import UnitCompiler.Build
import UnitCompiler.CommandLine
import UnitCompiler.Text.Terminal

/-!
# The program

What the program does with its arguments and the files around it: the exit code, the lines at the end
of a compilation, and the files it changes.
-/

namespace UnitCompiler

/-- How the program ends. -/
structure Exit where
  code : Nat
  /-- The last lines of a compilation that went through. -/
  closing : List String := []
  /-- What stopped a compilation. -/
  failure : Option BuildError := none
  /-- Everything that was reported. -/
  records : List Record := []
  /-- The line that tells the version. -/
  version : Option String := none
  /-- The paths of the artifacts. -/
  written : List String := []
  tree : FileTree

namespace Program

def version : String := "firefly 0.1.0\n"

/-- The causes of an error, numbered if there are several. -/
def describeCauses : List String → String
  | [] => ""
  | [cause] => "\n\nCaused by:\n    " ++ cause
  | causes =>
    "\n\nCaused by:" ++
      String.join (causes.mapIdx fun index cause => s!"\n    {index}: {cause}")

/-- The text of an error that stopped the program. -/
def describeFailure (error : BuildError) : String :=
  match error.chain with
  | [] => "Error: "
  | message :: causes => "Error: " ++ message ++ describeCauses causes

def closingLines (output : String) (result : BuildResult) : List String :=
  Text.shown
      s!"Compiled {result.compiled} unit(s), wrote {result.written.length} file(s) to {output}" ::
    if result.summary.isClean then []
    else [s!"Compilation reported {result.summary.total} error(s)"]

/-- The exit code after an error. A compilation that cannot even be set up breaks down. -/
def failureCode : BuildError → Nat
  | .settings (.excessive _) => 101
  | _ => 1

def compile (toolchain : Toolchain) (t : FileTree) (options : CompileOptions) : Exit :=
  match Build.loadSettings t options.source options.config with
  | .error e => { code := 1, failure := some (.settings e), tree := t }
  | .ok settings =>
    let settings := settings.adjust options.jobs (if options.keepGoing then some .keepGoing else none)
    let build := Build.run toolchain t options.source options.output settings
    match build.result with
    | .error e =>
      { code := failureCode e, failure := some e, records := build.records, tree := build.tree }
    | .ok result =>
      { code := if result.summary.isClean then 0 else 1
        closing := closingLines options.output result
        records := build.records
        written := result.written
        tree := build.tree }

def run (toolchain : Toolchain) (t : FileTree) : Command → Exit
  | .help => { code := 0, tree := t }
  | .version => { code := 0, version := some version, tree := t }
  | .misuse => { code := 2, tree := t }
  | .compile options => compile toolchain t options

end Program

end UnitCompiler
