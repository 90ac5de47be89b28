import UnitCompiler.Declaration

/-!
# Signatures

What a lookup asks for: a name, and a test on the declarations of that name.
-/

namespace UnitCompiler

structure Signature (α : Type) [Named α] where
  name : String
  accepts : α → Bool
  /-- Nothing of another name is accepted. -/
  named : ∀ declaration, accepts declaration = true → Named.name declaration = name

/-- Two types of which neither rules the other out. -/
def TypeRef.compatible (a b : TypeRef) : Bool :=
  a == .dynamic || b == .dynamic || a == b

/-- How a method is called. -/
inductive CallForm where
  /-- With an argument for every parameter. -/
  | exact (arity : Nat)
  /-- With the first arguments only, the others having defaults. -/
  | accepting (arity : Nat)
  /-- With arguments of the given types for every parameter. -/
  | types (types : List TypeRef)
  deriving DecidableEq, Repr

def CallForm.fits : CallForm → List Parameter → Bool
  | .exact arity, parameters => parameters.length == arity
  | .accepting arity, parameters =>
    arity ≤ parameters.length && (parameters.drop arity).all (·.default.isSome)
  | .types expected, parameters =>
    parameters.length == expected.length &&
      (expected.zip parameters).all fun (type, p) => type.compatible p.type

namespace Signature

def ofType (qualifiedName : String) : Signature TypeDeclaration where
  name := qualifiedName
  accepts d := d.qualifiedName == qualifiedName
  named _ h := eq_of_beq h

def ofMethod (name : String) (form : CallForm) : Signature MethodDeclaration where
  name := name
  accepts m := m.name == name && form.fits m.parameters
  named _ h := by
    simp only [Bool.and_eq_true, beq_iff_eq] at h
    exact h.1

end Signature

end UnitCompiler
