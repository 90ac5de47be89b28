import UnitCompiler.Instruction
import UnitCompiler.Text.Dotted

/-!
# Declarations

A unit declares one type with its constructors and methods.
-/

namespace UnitCompiler

/-- What a unit declares at its top level. -/
inductive UnitKind where
  | object
  | classType
  | interface
  | rule
  | unit
  deriving DecidableEq, Repr

def UnitKind.describe : UnitKind → String
  | .object => "object"
  | .classType => "class"
  | .interface => "interface"
  | .rule => "rule"
  | .unit => "unit"

inductive Modifier where
  | publicAccess
  | privateAccess
  | static
  | final
  | synthetic
  deriving DecidableEq, Repr

structure Parameter where
  name : String
  type : TypeRef
  /-- The value of an omitted argument. -/
  default : Option Instruction := none
  deriving DecidableEq, Repr

structure MethodDeclaration where
  name : String
  modifiers : List Modifier := [.publicAccess]
  parameters : List Parameter
  returnType : TypeRef
  body : List Instruction := []
  deriving DecidableEq, Repr

namespace MethodDeclaration

def shape (m : MethodDeclaration) : Shape :=
  ⟨m.returnType, m.parameters.map Parameter.type⟩

def isStatic (m : MethodDeclaration) : Bool :=
  m.modifiers.contains .static

end MethodDeclaration

structure Constructor where
  modifiers : List Modifier
  parameters : List Parameter
  body : List Instruction
  deriving DecidableEq, Repr

structure TypeDeclaration where
  qualifiedName : String
  kind : UnitKind
  modifiers : List Modifier := [.publicAccess, .final]
  constructors : List Constructor := []
  methods : List MethodDeclaration := []
  deriving DecidableEq, Repr

namespace TypeDeclaration

def simpleName (d : TypeDeclaration) : String :=
  Text.lastSegment d.qualifiedName

/-- The first method of a name. -/
def method? (d : TypeDeclaration) (name : String) : Option MethodDeclaration :=
  d.methods.find? (·.name == name)

end TypeDeclaration

/-- Declarations that a registry keeps by name. -/
class Named (α : Type) where
  name : α → String

instance : Named MethodDeclaration := ⟨MethodDeclaration.name⟩

instance : Named TypeDeclaration := ⟨TypeDeclaration.qualifiedName⟩

end UnitCompiler
