import UnitCompiler.Intrinsic

/-!
# Inlining

A call expands into bindings of the arguments followed by the body of the callee. A binding that is
read exactly once is then dropped and its value put in the place of the read.
-/

namespace UnitCompiler

namespace Instruction

mutual

/-- How often an instruction reads a variable. -/
def reads (name : String) : Instruction → Nat
  | .literal _ => 0
  | .declare _ _ value => value.reads name
  | .access other _ => if other = name then 1 else 0
  | .invoke _ receiver _ _ _ arguments => readsReceiver name receiver + readsAll name arguments
  | .stream _ => 0

def readsReceiver (name : String) : Option Instruction → Nat
  | none => 0
  | some receiver => receiver.reads name

def readsAll (name : String) : List Instruction → Nat
  | [] => 0
  | instruction :: rest => instruction.reads name + readsAll name rest

end

/-- Values for variables; of two for one name the first counts. -/
abbrev Substitution := List (String × Instruction)

mutual

/-- Puts values in the place of reads, in one pass: the values themselves stay as they are. -/
def substitute (values : Substitution) : Instruction → Instruction
  | .literal value => .literal value
  | .declare name type value => .declare name type (value.substitute values)
  | .access name type => (values.lookup name).getD (.access name type)
  | .invoke kind receiver owner name shape arguments =>
    .invoke kind (substituteReceiver values receiver) owner name shape
      (substituteAll values arguments)
  | .stream target => .stream target

def substituteReceiver (values : Substitution) : Option Instruction → Option Instruction
  | none => none
  | some receiver => some (receiver.substitute values)

def substituteAll (values : Substitution) : List Instruction → List Instruction
  | [] => []
  | instruction :: rest => instruction.substitute values :: substituteAll values rest

end

end Instruction

inductive InlineError where
  | arityMismatch (function : String) (expected found : Nat)
  | unknownIntrinsic (name : String)
  deriving DecidableEq, Repr

def InlineError.message : InlineError → String
  | .arityMismatch function expected found =>
    s!"Cannot inline '{function}': expected {expected} argument(s), found {found}"
  | .unknownIntrinsic name => s!"Unknown intrinsic function: {name}"

/-- Instructions that do what calling a method with the given arguments does. -/
abbrev Inliner := List Instruction → MethodDeclaration → Except InlineError (List Instruction)

namespace Inlining

/-- A declaration of each parameter with its argument, in order. -/
def bindings (parameters : List Parameter) (arguments : List Instruction) : List Instruction :=
  List.zipWith (fun p argument => .declare p.name p.type argument) parameters arguments

/-- The binding an instruction makes, if it is one of the given names and read exactly once. -/
def propagated? (names : List String) (code : List Instruction) :
    Instruction → Option (String × Instruction)
  | .declare name _ value =>
    if names.contains name && Instruction.readsAll name code == 1 then some (name, value) else none
  | _ => none

/-- Drops the bindings that are read once and puts their values in place. The last binding of a
name counts. -/
def propagate (names : List String) (code : List Instruction) : List Instruction :=
  let values := (code.filterMap (propagated? names code)).reverse
  let kept := code.filter fun instruction => (propagated? names code instruction).isNone
  kept.map (Instruction.substitute values)

/-- Bindings of all arguments, then the body. -/
def expand (arguments : List Instruction) (target : MethodDeclaration) : List Instruction :=
  bindings target.parameters arguments ++ target.body

def inline : Inliner := fun arguments target =>
  if arguments.length = target.parameters.length then
    .ok (propagate (target.parameters.map Parameter.name) (expand arguments target))
  else .error (.arityMismatch target.name target.parameters.length arguments.length)

/-- Inlines an instance of a printing function, made for the types of the arguments. -/
def inlineIntrinsic (inliner : Inliner) (number : Nat) (name : String)
    (arguments : List Instruction) : Except InlineError (List Instruction) :=
  match Intrinsic.ofName? name with
  | some i => inliner arguments (i.instantiate number (arguments.map Instruction.typeRef))
  | none => .error (.unknownIntrinsic name)

end Inlining

end UnitCompiler
