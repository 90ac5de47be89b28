import UnitCompiler.Declaration
import UnitCompiler.Text.Blank

/-!
# Source units

One source file waiting to be compiled. Its directory becomes the package of the type it declares.
-/

namespace UnitCompiler

/-- What reading a unit's text gives. -/
inductive Content where
  | text (source : String)
  | unreadable (reason : String)
  /-- The reader itself breaks down. -/
  | crash (message : String)
  deriving DecidableEq, Repr

structure SourceUnit where
  fileName : String
  /-- The directory relative to the source root, with slashes. -/
  relativePath : String
  kind : UnitKind := .unit
  content : Content
  deriving DecidableEq, Repr

namespace SourceUnit

/-- The file name without its extension. A dot in front starts no extension. -/
def unitName (u : SourceUnit) : String :=
  match Text.splitFirst '.' u.fileName.toList.reverse with
  | some (_, []) => u.fileName
  | some (_, stem) => String.ofList stem.reverse
  | none => u.fileName

/-- The directory without blanks and slashes around it. -/
def directory (u : SourceUnit) : List Char :=
  Text.stripBy (· == '/') (Text.strip u.relativePath.toList)

def packageName (u : SourceUnit) : String :=
  let names := (Text.pieces '/' u.directory).filter (!·.isEmpty)
  ".".intercalate (names.map String.ofList)

def qualifiedName (u : SourceUnit) : String :=
  Text.qualify u.packageName u.unitName

/-- The path shown in diagnostics. -/
def displayPath (u : SourceUnit) : String :=
  if u.directory.isEmpty then u.fileName else String.ofList u.directory ++ "/" ++ u.fileName

end SourceUnit

end UnitCompiler
