import UnitCompiler.Program

/-!
# Running the program

The files that a compilation can see are put into a tree, and those it changes are written back.
Directories are not listed here: the paths below the source and output directories come from standard
input, one on a line, and that of a directory ends in a slash.
-/

namespace UnitCompiler.Main

/-- The place a path leads to, as far as its text tells. -/
def placeOf (path : String) : Location :=
  (Path.names path).foldl FileTree.enter []

/-- Adds the file at a path, if there is one. -/
def loadFile (t : FileTree) (path : String) : IO FileTree := do
  try
    let bytes ← IO.FS.readBinFile path
    return t.addFile (placeOf path) bytes.toList
  catch _ => return t

def load (t : FileTree) (path : String) : IO FileTree :=
  if path.toList.getLast? == some '/' then pure (t.addDirectory (placeOf path)) else loadFile t path

/-- The lines of standard input, without their ends. -/
partial def inputLines (input : IO.FS.Stream) : IO (List String) := do
  let line ← input.getLine
  if line.isEmpty then return []
  let path := String.ofList (line.toList.filter (· != '\n'))
  return path :: (← inputLines input)

def loadFor (options : CompileOptions) : IO FileTree := do
  let paths ← inputLines (← IO.getStdin)
  let t ← (paths.filter (!·.isEmpty)).foldlM load {}
  loadFile t (options.config.getD (Path.join options.source Build.settingsName))

def store (path : String) (bytes : List UInt8) : IO Unit := do
  let directory := "/".intercalate (Path.pieces path).dropLast
  if !directory.isEmpty then IO.FS.createDirAll directory
  IO.FS.writeBinFile path ⟨bytes.toArray⟩

def usage : String :=
  "Usage: firefly [OPTIONS] compile <SOURCE>\n\n" ++
  "Options:\n" ++
  "  -v, --verbose          Enable verbose output\n" ++
  "  -d, --debug            Enable debug output\n" ++
  "  -h, --help             Print help\n" ++
  "  -V, --version          Print version\n\n" ++
  "Options of compile:\n" ++
  "  -o, --output <OUTPUT>  Output directory [default: out]\n" ++
  "  -c, --config <CONFIG>  Configuration file [env: FIREFLY_CONFIG]\n" ++
  "  -j, --jobs <JOBS>      Maximum number of units processed at once\n" ++
  "      --keep-going       Keep going when a source file cannot be listed"

def finish (t : FileTree) (exit : Exit) : IO UInt32 := do
  for (place, bytes) in t.changes exit.tree do
    store (Path.ofLocation place) bytes
  for record in exit.records do
    IO.println record.describe
  for line in exit.closing do
    IO.println line
  if let some line := exit.version then IO.print line
  if let some error := exit.failure then IO.eprintln (Program.describeFailure error)
  return exit.code.toUInt32

end UnitCompiler.Main

open UnitCompiler in
def main (arguments : List String) : IO UInt32 := do
  let environment ← IO.getEnv "FIREFLY_CONFIG"
  let command := Command.parse environment arguments
  let t ← match command with
    | .compile options => Main.loadFor options
    | _ => pure {}
  match command with
  | .help => IO.println Main.usage
  | .misuse => IO.eprintln Main.usage
  | _ => pure ()
  Main.finish t (Program.run Toolchain.standard t command)
