import UnitCompiler.Json.Reader
import UnitCompiler.Text.Dotted

/-!
# File trees

Directories and files below a working directory. Paths are texts with slashes, followed name by name
from the working directory. An absolute path starts from the root, which is named by a slash. The root
and the directories above the working directory are always there.
-/

namespace UnitCompiler

/-- A place in a tree: the names that lead there. -/
abbrev Location := List String

inductive FileError where
  | notFound
  | exists
  | notDirectory
  | isDirectory
  | nameTooLong
  | nulByte
  | notText
  deriving DecidableEq, Repr

def FileError.message : FileError → String
  | .notFound => "No such file or directory (os error 2)"
  | .exists => "File exists (os error 17)"
  | .notDirectory => "Not a directory (os error 20)"
  | .isDirectory => "Is a directory (os error 21)"
  | .nameTooLong => "File name too long (os error 36)"
  | .nulByte => "file name contained an unexpected NUL byte"
  | .notText => "stream did not contain valid UTF-8"

namespace Path

def isAbsolute (path : String) : Bool :=
  path.toList.head? == some '/'

def pieces (path : String) : List String :=
  (Text.pieces '/' path.toList).map String.ofList

/-- The names along a path. Repeated slashes and single dots do not count. -/
def names (path : String) : List String :=
  let names := (pieces path).filter fun name => name ≠ "" ∧ name ≠ "."
  if isAbsolute path then "/" :: names else names

/-- The path of something inside a directory. -/
def join (directory path : String) : String :=
  if isAbsolute path || directory.isEmpty then path
  else if directory.toList.getLast? == some '/' then directory ++ path
  else directory ++ "/" ++ path

def endsInSlash (path : String) : Bool :=
  path.toList.getLast? == some '/'

/-- The last piece of a path, slashes behind it aside. Nothing is left of a path of slashes. -/
def lastPiece? (path : String) : Option String :=
  (pieces path).reverse.find? (· ≠ "")

/-- Whether a path ends in dots or is nothing but slashes, so that it names no entry of a
directory. -/
def endsInDots (path : String) : Bool :=
  match lastPiece? path with
  | some last => last == "." || last == ".."
  | none => true

/-- The path without the slashes and single dots at its end. -/
def trimEnd (path : List String) : List String :=
  (path.reverse.dropWhile fun piece => piece == "" || piece == ".").reverse

/-- The path of the directory that holds what a path names. -/
def parent (path : String) : String :=
  let above := trimEnd (trimEnd (pieces path)).dropLast
  if above.isEmpty && isAbsolute path then "/" else "/".intercalate above

/-- How many bytes a path may have. -/
def maxSize : Nat := 4095

/-- Whether a path goes up somewhere. -/
def goesUp (path : String) : Bool :=
  (pieces path).contains ".."

/-- The file name's part behind the last dot, unless that dot is its first character. -/
def extension? (name : String) : Option String :=
  match Text.splitFirst '.' name.toList.reverse with
  | some (_, []) => none
  | some (extension, _) => some (String.ofList extension.reverse)
  | none => none

/-- The path of a place. -/
def ofLocation : Location → String
  | "/" :: names => "/" ++ "/".intercalate names
  | names => "/".intercalate names

end Path

/-- A file or a directory with what stands in it, in the order of the names. -/
inductive Entry where
  | file (bytes : List UInt8)
  | directory (entries : List (String × Entry))
  deriving Repr

namespace Entry

def isDirectory : Entry → Bool
  | .directory _ => true
  | .file _ => false

def entries : Entry → List (String × Entry)
  | .directory entries => entries
  | .file _ => []

/-- What stands at a place below an entry. -/
def at? : Entry → Location → Option Entry
  | e, [] => some e
  | e, name :: rest =>
    match e.entries.lookup name with
    | some next => next.at? rest
    | none => none

/-- Gives an entry a name, which no other entry keeps. -/
def insert (name : String) (e : Entry) : List (String × Entry) → List (String × Entry)
  | [] => [(name, e)]
  | (other, next) :: rest =>
    if name = other then (name, e) :: rest
    else if name < other then (name, e) :: (other, next) :: rest
    else (other, next) :: insert name e rest

/-- Puts something at a place, with the directories that lead there. -/
def put (new : Entry) : Entry → Location → Entry
  | _, [] => new
  | e, name :: rest =>
    .directory (insert name (put new ((e.entries.lookup name).getD (.directory [])) rest) e.entries)

mutual

/-- The files in an entry with the names that lead there. -/
def files : Entry → List (Location × List UInt8)
  | .file bytes => [([], bytes)]
  | .directory entries => filesOf entries

def filesOf : List (String × Entry) → List (Location × List UInt8)
  | [] => []
  | (name, e) :: rest =>
    e.files.map (fun (names, bytes) => (name :: names, bytes)) ++ filesOf rest

end

end Entry

structure FileTree where
  /-- The working directory. -/
  top : Entry := .directory []
  deriving Repr

namespace FileTree

/-- Whether a place is the root, or the working directory or one above it. -/
def isGiven (place : Location) : Bool :=
  place == ["/"] || place.all (· == "..")

/-- What stands at a place. -/
def at? (t : FileTree) (place : Location) : Option Entry :=
  match t.top.at? place with
  | some e => some e
  | none => if isGiven place then some (.directory []) else none

/-- The place one name further. -/
def enter (place : Location) (name : String) : Location :=
  if name = ".." then
    if place = ["/"] then place
    else if place.isEmpty || place.getLast? == some ".." then place ++ [".."]
    else place.dropLast
  else place ++ [name]

/-- How many bytes a name may have. -/
def maxNameSize : Nat := 255

/-- A directory must be there. -/
def checkDirectory (t : FileTree) (place : Location) : Except FileError Unit :=
  match t.at? place with
  | none => .error .notFound
  | some (.file _) => .error .notDirectory
  | some (.directory _) => .ok ()

/-- Follows names from a place. All but the last must lead to directories. -/
def follow (t : FileTree) (place : Location) : List String → Except FileError Location
  | [] => .ok place
  | name :: rest => do
    t.checkDirectory place
    if maxNameSize < name.utf8ByteSize then throw .nameTooLong
    t.follow (enter place name) rest

/-- The text of a path must be one that can be followed at all. -/
def checkPath (path : String) : Except FileError Unit :=
  if path.toList.contains '\x00' then .error .nulByte
  else if path.isEmpty then .error .notFound
  else if Path.maxSize < path.utf8ByteSize then .error .nameTooLong
  else .ok ()

/-- What a path leads to. -/
def find (t : FileTree) (path : String) : Except FileError (Location × Entry) := do
  checkPath path
  let place ← t.follow [] (Path.names path)
  if Path.endsInSlash path || Path.endsInDots path then t.checkDirectory place
  match t.at? place with
  | none => throw .notFound
  | some e => return (place, e)

def isFile (t : FileTree) (path : String) : Bool :=
  match t.find path with
  | .ok (_, .file _) => true
  | _ => false

def read (t : FileTree) (path : String) : Except FileError (List UInt8) := do
  match ← t.find path with
  | (_, .file bytes) => return bytes
  | (_, .directory _) => throw .isDirectory

/-- The text of some bytes. -/
def decode (bytes : List UInt8) : Except FileError String :=
  match Json.decodeUtf8 bytes with
  | some text => .ok text
  | none => .error .notText

def readText (t : FileTree) (path : String) : Except FileError String := do
  decode (← t.read path)

/-- The files below a place with the names that lead there from it, in order. -/
def filesBelow (t : FileTree) (place : Location) : List (Location × List UInt8) :=
  ((t.at? place).map fun e => Entry.filesOf e.entries).getD []

/-! ## Changes -/

/-- Puts something at a place, with the directories that lead there. -/
def put (t : FileTree) (place : Location) (e : Entry) : FileTree :=
  ⟨e.put t.top place⟩

/-- Makes the directories on a way of names. A file in the way of others is no directory, but when
its own turn comes, because directories before it had to be made, it is there already. -/
def makeWay (t : FileTree) (place : Location) (made : Bool) :
    List String → Except FileError FileTree
  | [] => .ok t
  | name :: rest =>
    if maxNameSize < name.utf8ByteSize then .error .nameTooLong
    else
      let next := enter place name
      match t.at? next with
      | some (.directory _) => t.makeWay next made rest
      | some (.file _) => .error (if made || rest.isEmpty then .exists else .notDirectory)
      | none => (t.put next (.directory [])).makeWay next true rest

/-- Makes the directory at a path with all that lead to it. -/
def makeDirectories (t : FileTree) (path : String) : Except FileError FileTree := do
  if path.isEmpty then return t
  checkPath path
  t.makeWay [] false (Path.names path)

/-- Writes a file into a directory that is there. What ends in a slash is taken for a directory
whether or not there is one. -/
def write (t : FileTree) (path : String) (bytes : List UInt8) : Except FileError FileTree := do
  checkPath path
  let names := Path.names path
  if Path.endsInDots path then
    t.checkDirectory (← t.follow [] names)
    throw .isDirectory
  if Path.endsInSlash path then
    t.checkDirectory (← t.follow [] names.dropLast)
    throw .isDirectory
  let place ← t.follow [] names
  match t.at? place with
  | some (.directory _) => throw .isDirectory
  | _ => return t.put place (.file bytes)

/-- Puts a directory at a place, unless there is one. -/
def addDirectory (t : FileTree) (place : Location) : FileTree :=
  match t.at? place with
  | some (.directory _) => t
  | _ => t.put place (.directory [])

/-- Puts a file at a place, over one that may be there already. -/
def addFile (t : FileTree) (place : Location) (bytes : List UInt8) : FileTree :=
  t.put place (.file bytes)

def holds (t : FileTree) (place : Location) (bytes : List UInt8) : Bool :=
  match t.at? place with
  | some (.file old) => old == bytes
  | _ => false

/-- The files that are new or have changed since. -/
def changes (before after : FileTree) : List (Location × List UInt8) :=
  after.top.files.filter fun (place, bytes) => !before.holds place bytes

end FileTree

end UnitCompiler
