import UnitCompiler.Declaration

/-!
# Names known everywhere

Built-in types and the printing functions need no declaration.
-/

namespace UnitCompiler

/-- The text behind a given start, if it starts that way. -/
def afterStart? (start text : List Char) : Option (List Char) :=
  if text.take start.length = start then some (text.drop start.length) else none

/-- The simple name a type name stands for inside the standard namespaces. -/
def standardName (name : String) : String :=
  let text := name.toList
  match (afterStart? "firefly.Std.Primitives".toList text).orElse fun _ =>
      afterStart? "firefly.Std".toList text with
  | some rest => String.ofList (rest.dropWhile (· == '.'))
  | none => name

/-- The built-in type of a name. -/
def builtInType (name : String) : Option TypeRef :=
  match standardName name with
  | "String" => some .string
  | "Int" => some .int
  | "Long" => some .long
  | "Boolean" => some .bool
  | "Bool" => some .bool
  | "Decimal" => some .decimal
  | "Double" => some .decimal
  | "Char" => some .char
  | "Character" => some .char
  | "Byte" => some .byte
  | "Unit" => some .void
  | _ => none

inductive Intrinsic where
  | print
  | println
  | eprint
  | eprintln
  deriving DecidableEq, Repr

namespace Intrinsic

def ofName? (name : String) : Option Intrinsic :=
  match name with
  | "print" => some .print
  | "println" => some .println
  | "eprint" => some .eprint
  | "eprintln" => some .eprintln
  | _ => none

def name : Intrinsic → String
  | .print => "print"
  | .println => "println"
  | .eprint => "eprint"
  | .eprintln => "eprintln"

def stream : Intrinsic → StandardStream
  | .print | .println => .out
  | .eprint | .eprintln => .err

/-- The method of the stream that does the printing. -/
def streamMethod : Intrinsic → String
  | .print | .eprint => "print"
  | .println | .eprintln => "println"

/-- The name of an instance's parameter. No identifier of a source text holds a dollar sign. -/
def parameterName (number index : Nat) : String :=
  s!"__p${number}${index}"

/-- The method an intrinsic stands for at the given argument types. Every instance has a number of
its own, so that no two share a parameter name. -/
def instantiate (i : Intrinsic) (number : Nat) (types : List TypeRef) : MethodDeclaration :=
  { name := i.streamMethod
    modifiers := [.publicAccess, .synthetic]
    parameters := types.mapIdx fun index type => { name := parameterName number index, type }
    returnType := .void
    body := [.invoke .virtual (some (.stream i.stream)) printStream i.streamMethod ⟨.void, types⟩
      (types.mapIdx fun index type => .access (parameterName number index) type)] }

end Intrinsic

def isIntrinsic (name : String) : Bool :=
  (Intrinsic.ofName? name).isSome

end UnitCompiler
