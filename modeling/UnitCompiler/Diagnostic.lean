import UnitCompiler.Inlining
import UnitCompiler.SourceUnit
import UnitCompiler.Span

/-!
# Diagnostics

What is wrong with a unit that could be read: a fault at a span. Faults do not stop the compilation
of the unit.
-/

namespace UnitCompiler

inductive Fault where
  /-- No declared type goes by the name of an annotation. -/
  | unknownType (name : String)
  | nullLiteral
  | unknownVariable (name : String)
  /-- The unit declares no function that takes this many arguments. -/
  | unknownFunction (name : String) (arity : Nat) (owner : String)
  /-- A call stands where one value is needed but expands into several instructions. -/
  | notAValue (function : String) (size : Nat)
  | inlining (function : String) (cause : InlineError)
  deriving DecidableEq, Repr

namespace Fault

def message : Fault → String
  | .unknownType name => s!"Could not resolve the type '{name}'"
  | .nullLiteral => "Null literal is not allowed"
  | .unknownVariable name => s!"Could not resolve the variable '{name}'"
  | .unknownFunction name _ _ => s!"Could not resolve the function '{name}'"
  | .notAValue function _ => s!"The call to '{function}' cannot be used as a value"
  | .inlining function _ => s!"Could not inline the function '{function}'"

def details : Fault → List String
  | .unknownType _ => ["The type could not be found during the resolution step."]
  | .nullLiteral => ["Firefly does not support 'null' elements."]
  | .unknownVariable name => [s!"No parameter named '{name}' is in scope."]
  | .unknownFunction name arity owner =>
    [s!"No function '{name}' accepting {arity} argument(s) is declared in '{owner}'."]
  | .notAValue _ size => [s!"It expands to {size} instructions."]
  | .inlining _ cause => [cause.message]

end Fault

/-- A message about a place in a unit. -/
structure Diagnostic where
  unit : SourceUnit
  span : Span
  message : String
  details : List String
  deriving DecidableEq, Repr

namespace Diagnostic

def ofFault (unit : SourceUnit) (span : Span) (fault : Fault) : Diagnostic :=
  ⟨unit, span, fault.message, fault.details⟩

/-- The path of the unit. -/
def path (d : Diagnostic) : String := d.unit.displayPath

def location (d : Diagnostic) : String :=
  d.path ++ ":" ++ d.span.describe

end Diagnostic

end UnitCompiler
