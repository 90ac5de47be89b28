import UnitCompiler.Image.Decoding
import UnitCompiler.Image.Encoding
import UnitCompiler.Json.Printer
import UnitCompiler.Json.Reader

/-!
# Images

A declared type is stored as an image: four magic bytes, a version in two bytes with the high one
first, and the source file name and declaration as compact JSON.
-/

namespace UnitCompiler

/-- A file the compiler puts out, by its name with slashes. -/
structure Artifact where
  name : String
  bytes : List UInt8
  deriving DecidableEq, Repr

structure Image where
  sourceFile : String
  declaration : TypeDeclaration
  deriving DecidableEq, Repr

inductive ImageError where
  | invalidDeclaration (reason : String)
  | invalidImage (reason : String)
  | unsupportedVersion (found : Nat)
  | malformedPayload
  | inputOutput (reason : String)
  deriving DecidableEq, Repr

namespace Image

def magic : List UInt8 := [0x46, 0x46, 0x43, 0x00]

def version : Nat := 1

def header : List UInt8 := magic ++ [0x00, 0x01]

/-- How many arrays and objects may stand inside each other in a payload. -/
def maxDepth : Nat := 127

def payload (image : Image) : Json :=
  .ofFields [("sourceFile", .ofString image.sourceFile),
    ("declaration", image.declaration.toJson)]

def encode (image : Image) : List UInt8 :=
  header ++ image.payload.bytes

def ofPayload? : Json → Option Image :=
  Json.asStructure maxDepth ["sourceFile", "declaration"] fun room => fun
    | [some sourceFile, some declaration] => do
      return ⟨← sourceFile.asString, ← TypeDeclaration.ofJson? room declaration⟩
    | _ => none

def decode (bytes : List UInt8) : Except ImageError Image :=
  match bytes with
  | a :: b :: c :: d :: high :: low :: rest =>
    if [a, b, c, d] ≠ magic then .error (.invalidImage "bad magic")
    else
      let found := high.toNat * 256 + low.toNat
      if found ≠ version then .error (.unsupportedVersion found)
      else
        match (Json.parse rest).bind ofPayload? with
        | some image => .ok image
        | none => .error .malformedPayload
  | _ => .error (.invalidImage s!"image is {bytes.length} bytes, shorter than its header")

/-- A type name whose segments are all there. -/
def isValidName (name : String) : Bool :=
  (Text.segments name).all (!·.isEmpty)

/-- The name of a type's image. -/
def artifactName (qualifiedName : String) : String :=
  String.ofList (qualifiedName.toList.map fun c => if c = '.' then '/' else c) ++ ".ffc"

/-- The images of a declaration: one, under the type's own name. -/
def generate (sourceFile : String) (declaration : TypeDeclaration) :
    Except ImageError (List Artifact) :=
  if isValidName declaration.qualifiedName then
    .ok [⟨artifactName declaration.qualifiedName, encode ⟨sourceFile, declaration⟩⟩]
  else .error (.invalidDeclaration s!"'{declaration.qualifiedName}' is not a valid qualified name")

end Image

namespace ImageError

def message : ImageError → String
  | .invalidDeclaration reason => s!"Invalid declaration: {reason}"
  | .invalidImage reason => s!"Invalid image: {reason}"
  | .unsupportedVersion found =>
    s!"Unsupported image version {found} (expected {Image.version})"
  | .malformedPayload => "Serialization error"
  | .inputOutput reason => s!"IO error: {reason}"

/-- The message, then what it was caused by. -/
def chain (e : ImageError) : List String :=
  match e with
  | .inputOutput reason => [e.message, reason]
  | _ => [e.message]

end ImageError

end UnitCompiler
