import UnitCompiler.Diagnostic
import UnitCompiler.Inquiry

/-!
# Emission

Once all names of a unit are looked up, its tree becomes a type declaration: the statements outside
functions are the body of the entry point, every function is a method. Whatever makes no sense is
reported and left out.
-/

namespace UnitCompiler

/-- A fault and its place. -/
structure Finding where
  span : Span
  fault : Fault
  deriving DecidableEq, Repr

/-- What emission keeps track of. -/
structure Ledger where
  /-- The number of the next instance of an intrinsic. -/
  instances : Nat := 1
  /-- Findings in the order in which they were made. -/
  findings : List Finding := []
  deriving Repr

abbrev Emit := StateM Ledger

/-- What emission needs to know about a unit. -/
structure Surroundings where
  owner : String
  references : References
  inliner : Inliner

/-- The variables in scope; of two with one name the last counts. -/
abbrev Scope := List (String × TypeRef)

def Scope.type? (scope : Scope) (name : String) : Option TypeRef :=
  scope.reverse.lookup name

namespace Emission

def report (span : Span) (fault : Fault) : Emit Unit :=
  modify fun ledger => { ledger with findings := ledger.findings ++ [⟨span, fault⟩] }

def nextInstance : Emit Nat := do
  let ledger ← get
  set { ledger with instances := ledger.instances + 1 }
  pure ledger.instances

/-- A call of an intrinsic, in place. -/
def inlineCall (s : Surroundings) (name : String) (span : Span) (arguments : List Instruction) :
    Emit (List Instruction) := do
  let number ← nextInstance
  match Inlining.inlineIntrinsic s.inliner number name arguments with
  | .ok code => pure code
  | .error cause =>
    report span (.inlining name cause)
    pure []

/-- A call of a declared method. Arguments that are left out come from the defaults. -/
def invocation (owner : String) (target : MethodDeclaration) (arguments : List Instruction) :
    Instruction :=
  let defaults := (target.parameters.drop arguments.length).filterMap Parameter.default
  .invoke (if target.isStatic then .static else .virtual) none (.named owner) target.name target.shape
    (arguments ++ defaults)

/-- The code of a call with the given number of arguments, of which those with a fault are missing
from the values. -/
def call (s : Surroundings) (name : String) (arity : Nat) (span : Span)
    (values : List Instruction) : Emit (List Instruction) := do
  if isIntrinsic name then inlineCall s name span values
  else
    match s.references.method? ⟨name, arity⟩ with
    | none =>
      report span (.unknownFunction name arity s.owner)
      pure []
    | some target =>
      if values.length = arity then pure [invocation s.owner target values] else pure []

/-- The one instruction that stands for a value. -/
def single (name : String) (span : Span) : List Instruction → Emit (Option Instruction)
  | [] => pure none
  | [instruction] => pure (some instruction)
  | code => do
    report span (.notAValue name code.length)
    pure none

mutual

/-- An expression that must give exactly one value. -/
def value (s : Surroundings) (scope : Scope) : Expr → Emit (Option Instruction)
  | .literal literal _ => pure (some (.literal literal))
  | .null span => do
    report span .nullLiteral
    pure none
  | .name name span =>
    match scope.type? name with
    | some type => pure (some (.access name type))
    | none => do
      report span (.unknownVariable name)
      pure none
  | .call name arguments span => do
    let code ← call s name arguments.length span (← values s scope arguments)
    single name span code

/-- The values that could be made of some expressions. -/
def values (s : Surroundings) (scope : Scope) : List Expr → Emit (List Instruction)
  | [] => pure []
  | expr :: rest => do
    let first ← value s scope expr
    let others ← values s scope rest
    pure (first.toList ++ others)

end

/-- A statement may expand into any number of instructions. -/
def statement (s : Surroundings) (scope : Scope) : Expr → Emit (List Instruction)
  | .call name arguments span => do
    call s name arguments.length span (← values s scope arguments)
  | expr => do
    pure (← value s scope expr).toList

def statements (s : Surroundings) (scope : Scope) : List Expr → Emit (List Instruction)
  | [] => pure []
  | expr :: rest => do
    let first ← statement s scope expr
    let others ← statements s scope rest
    pure (first ++ others)

def parameterType (s : Surroundings) : Option TypeName → Emit TypeRef
  | none => pure .dynamic
  | some annotation =>
    match s.references.type? annotation.name with
    | some type => pure type
    | none => do
      report annotation.span (.unknownType annotation.name)
      pure .dynamic

/-- No variable is in scope in a default. -/
def parameterDefault (s : Surroundings) : Option Expr → Emit (Option Instruction)
  | none => pure none
  | some expr => value s [] expr

def parameter (s : Surroundings) (p : Param) : Emit Parameter := do
  let type ← parameterType s p.type
  let default ← parameterDefault s p.default
  pure ⟨p.name, type, default⟩

def parameters (s : Surroundings) : List Param → Emit (List Parameter)
  | [] => pure []
  | p :: rest => do
    let first ← parameter s p
    let others ← parameters s rest
    pure (first :: others)

def scopeOf (parameters : List Parameter) : Scope :=
  parameters.map fun p => (p.name, p.type)

def method (s : Surroundings) (f : Function) (skeleton : MethodDeclaration) :
    Emit MethodDeclaration := do
  let parameters ← parameters s f.parameters
  let body ← statements s (scopeOf parameters) f.body
  pure { skeleton with parameters, body }

def methods (s : Surroundings) : List (Function × MethodDeclaration) → Emit (List MethodDeclaration)
  | [] => pure []
  | (f, skeleton) :: rest => do
    let first ← method s f skeleton
    let others ← methods s rest
    pure (first :: others)

/-- The entry point and the other methods of an outline. -/
def allMethods (s : Surroundings) (o : Outline) : Emit (List MethodDeclaration) :=
  match o.methods with
  | [] => pure []
  | entrypoint :: skeletons => do
    let body ← statements s (scopeOf entrypoint.parameters) o.tree.statements
    let others ← methods s (o.tree.functions.zip skeletons)
    pure ({ entrypoint with body } :: others)

/-- Nobody outside can make a value of a unit's type. -/
def hiddenConstructor : Constructor := ⟨[.privateAccess], [], []⟩

def typeDeclaration (inliner : Inliner) (references : References) (o : Outline) :
    Emit TypeDeclaration := do
  let methods ← allMethods ⟨o.owner, references, inliner⟩ o
  pure { qualifiedName := o.owner, kind := .unit, constructors := [hiddenConstructor], methods }

end Emission

/-- A unit with everything it declares. -/
structure DeclaredUnit where
  unit : SourceUnit
  declaration : TypeDeclaration
  deriving DecidableEq, Repr

/-- The declaration of a unit, the diagnostics about it and the number of the next instance. -/
def Outline.emit (o : Outline) (inliner : Inliner) (instances : Nat) (references : References) :
    DeclaredUnit × List Diagnostic × Nat :=
  let (declaration, ledger) := (Emission.typeDeclaration inliner references o).run { instances }
  let diagnostics := ledger.findings.map fun f => .ofFault o.unit f.span f.fault
  (⟨o.unit, declaration⟩, diagnostics, ledger.instances)

end UnitCompiler
