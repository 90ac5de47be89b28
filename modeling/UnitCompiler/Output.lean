import UnitCompiler.FileTree
import UnitCompiler.Image

/-!
# Output

Artifacts are written below an output directory. A name that would lead out of it is refused.
-/

namespace UnitCompiler

namespace Output

/-- Whether an artifact of this name would be written outside the output directory. -/
def escapes (name : String) : Bool :=
  Path.isAbsolute name || Path.goesUp name

/-- Writes one artifact; the answer is its path. -/
def writeOne (t : FileTree) (directory : String) (a : Artifact) :
    Except ImageError String × FileTree :=
  if escapes a.name then
    (.error (.invalidImage s!"artifact name '{a.name}' escapes the output directory"), t)
  else
    let path := Path.join directory a.name
    match t.makeDirectories (Path.parent path) with
    | .error e => (.error (.inputOutput e.message), t)
    | .ok t =>
      match t.write path a.bytes with
      | .error e => (.error (.inputOutput e.message), t)
      | .ok t => (.ok path, t)

/-- Writes artifacts in order up to the first that cannot be written; the answer are their paths. -/
def write (t : FileTree) (directory : String) :
    List Artifact → Except ImageError (List String) × FileTree
  | [] => (.ok [], t)
  | a :: rest =>
    match writeOne t directory a with
    | (.error e, t) => (.error e, t)
    | (.ok path, t) =>
      match write t directory rest with
      | (.error e, t) => (.error e, t)
      | (.ok paths, t) => (.ok (path :: paths), t)

end Output

end UnitCompiler
