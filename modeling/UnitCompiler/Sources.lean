import UnitCompiler.FileTree
import UnitCompiler.Pipeline

/-!
# Source files

The units of a directory are the files in it and below it that end in `.firefly`, in the order of
their names. The directory of a file, as seen from the top, is the path of its unit.
-/

namespace UnitCompiler

namespace Sources

def extension : String := "firefly"

def isSource (name : String) : Bool :=
  Path.extension? name == some extension

/-- What reading a file gives. -/
def content (path : String) (bytes : List UInt8) : Content :=
  match FileTree.checkPath path, FileTree.decode bytes with
  | .ok _, .ok source => .text source
  | .ok _, .error e => .unreadable e.message
  | .error e, _ => .unreadable e.message

/-- The unit of a file, by the names that lead to it from the top. -/
def unit? (names : Location) (content : Content) : Option SourceUnit :=
  match names.getLast? with
  | none => none
  | some fileName =>
    if isSource fileName then some ⟨fileName, "/".intercalate names.dropLast, .unit, content⟩
    else none

/-- What comes in place of the units of a directory that cannot be listed. -/
def unlisted (root path : String) (e : FileError) : Input :=
  .failure [s!"Failed to list sources under {root}",
    s!"IO error for operation on {path}: {e.message}", e.message]

mutual

/-- The units in what stands at a path, by the names that lead to it from the top. -/
def walk (root path : String) (names : Location) : Entry → List Input
  | .file bytes => ((unit? names (content path bytes)).map Input.unit).toList
  | .directory entries =>
    match FileTree.checkPath path with
    | .ok _ => walkAll root path names entries
    | .error e => [unlisted root path e]

def walkAll (root path : String) (names : Location) : List (String × Entry) → List Input
  | [] => []
  | (name, e) :: rest =>
    walk root (Path.join path name) (names ++ [name]) e ++ walkAll root path names rest

end

/-- The units under a path, or the reason why there are none. -/
def discover (t : FileTree) (root : String) : List Input :=
  match t.find root with
  | .error e => [unlisted root root e]
  | .ok (place, .file _) =>
    if isSource (place.getLastD "") then [.failure [s!"{root} has no UTF-8 file name"]] else []
  | .ok (_, .directory entries) => walkAll root root [] entries

end Sources

end UnitCompiler
