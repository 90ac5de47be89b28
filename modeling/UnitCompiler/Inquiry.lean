import UnitCompiler.Outline

/-!
# Inquiries

The names a unit refers to are looked up one after another: first the types of its parameters, for
each of them the candidates in order, then the functions it calls. The answers become its references.
-/

namespace UnitCompiler

/-- A function name with a number of arguments. -/
structure Call where
  name : String
  arity : Nat
  deriving DecidableEq, Repr

/-- What the names in a unit stand for. -/
structure References where
  types : List (String × Option TypeRef) := []
  methods : List (Call × Option MethodDeclaration) := []
  deriving Repr

namespace References

/-- The type of an annotation; built-in types need no look up. -/
def type? (r : References) (name : String) : Option TypeRef :=
  match builtInType name with
  | some type => some type
  | none => (r.types.lookup name).join

def method? (r : References) (call : Call) : Option MethodDeclaration :=
  (r.methods.lookup call).join

end References

namespace Expr

mutual

/-- The calls in an expression, outer ones first. -/
def calls : Expr → List Call
  | .literal _ _ => []
  | .null _ => []
  | .name _ _ => []
  | .call function arguments _ => ⟨function, arguments.length⟩ :: callsAll arguments

def callsAll : List Expr → List Call
  | [] => []
  | expr :: rest => expr.calls ++ callsAll rest

end

end Expr

namespace UnitTree

/-- The annotations that name a declared type, each once. -/
def annotations (tree : UnitTree) : List String :=
  let names := tree.functions.flatMap fun f => f.parameters.filterMap fun p => p.type.map TypeName.name
  (names.filter fun name => (builtInType name).isNone).eraseDups

def functionCalls (f : Function) : List Call :=
  (f.parameters.flatMap fun p => Expr.callsAll p.default.toList) ++ Expr.callsAll f.body

/-- The calls of functions that have to be declared, each once. -/
def calls (tree : UnitTree) : List Call :=
  let all := tree.functions.flatMap functionCalls ++ Expr.callsAll tree.statements
  (all.filter fun call => !isIntrinsic call.name).eraseDups

end UnitTree

/-- What is still to be looked up, and what is known already. -/
structure Inquiry where
  /-- The types that are left, with the candidates not tried yet. -/
  types : List (String × List String)
  calls : List Call
  known : References := {}
  deriving Repr

/-- The next thing to look up. -/
inductive Question where
  | type (candidate : String)
  | method (call : Call)
  deriving DecidableEq, Repr

namespace Inquiry

def ofOutline (o : Outline) : Inquiry where
  types := o.tree.annotations.map fun name =>
    (name, Import.typeCandidates o.tree.importTable o.unit.packageName name)
  calls := o.tree.calls

/-- Types without a candidate left are unknown. -/
def skip (known : References) : List (String × List String) → References × List (String × List String)
  | (name, []) :: rest => skip { known with types := known.types ++ [(name, none)] } rest
  | types => (known, types)

def normalize (i : Inquiry) : Inquiry :=
  let (known, types) := skip i.known i.types
  { i with known, types }

/-- The question of an inquiry in which the first type has a candidate. -/
def question? (i : Inquiry) : Option Question :=
  match i.types with
  | (_, candidate :: _) :: _ => some (.type candidate)
  | _ =>
    match i.calls with
    | call :: _ => some (.method call)
    | [] => none

/-- Takes the answer to the question about a type. -/
def answerType (i : Inquiry) (found : Option TypeDeclaration) : Inquiry :=
  match i.types with
  | (name, _ :: candidates) :: rest =>
    match found with
    | some d =>
      let types := i.known.types ++ [(name, some (TypeRef.named d.qualifiedName))]
      normalize { i with types := rest, known := { i.known with types } }
    | none => normalize { i with types := (name, candidates) :: rest }
  | _ => i

/-- Takes the answer to the question about a function. -/
def answerMethod (i : Inquiry) (found : Option MethodDeclaration) : Inquiry :=
  match i.calls with
  | call :: rest =>
    { i with calls := rest, known := { i.known with methods := i.known.methods ++ [(call, found)] } }
  | [] => i

/-- The inquiry with which looking up the names of a unit starts. -/
def start (o : Outline) : Inquiry := (ofOutline o).normalize

/-- How many questions are left at most. -/
def size (i : Inquiry) : Nat :=
  i.types.foldl (fun n (_, candidates) => n + candidates.length) i.calls.length

end Inquiry

end UnitCompiler
