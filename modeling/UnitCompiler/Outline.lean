import UnitCompiler.Intrinsic
import UnitCompiler.Registry
import UnitCompiler.SourceError
import UnitCompiler.SourceUnit
import UnitCompiler.Text.Quoted
import UnitCompiler.Tree

/-!
# Outlines

The outline of a unit is what can be said about it without knowing any other unit: its tree, the type
it declares and the methods of that type without their bodies. It is what other units look up.
-/

namespace UnitCompiler

/-- Something that stops on an error or breaks down. -/
inductive Failure (ε : Type) where
  | error (cause : ε)
  /-- A breakdown need not say anything. -/
  | crash (message : Option String)
  deriving DecidableEq, Repr

/-- What is said about a breakdown. -/
def crashText (message : Option String) : String :=
  message.getD "unknown panic"

/-- Gives the tree of a source text. -/
abbrev Grammar := String → Except (Failure SourceError) UnitTree

/-- Why a unit could not be declared. -/
inductive DeclareError where
  | unsupportedKind (kind : UnitKind)
  | unreadable (reason : String)
  /-- The task that reads the content broke down. -/
  | reader (message : String)
  | source (error : SourceError)
  | registrationClosed (owner name : String)
  | tableClosed
  deriving DecidableEq, Repr

namespace DeclareError

/-- The cause behind an error, where the error only passes it on. -/
def cause? : DeclareError → Option String
  | .unsupportedKind _ => none
  | .unreadable reason => some reason
  | .reader message => some ("task N panicked with message " ++ Text.quoted message)
  | .source _ => none
  | .registrationClosed owner name => some (Reply.refusal owner name)
  | .tableClosed => some Reply.absence

def message (e : DeclareError) : String :=
  match e with
  | .unsupportedKind kind => "Unsupported unit kind: " ++ kind.describe
  | .unreadable _ => "Failed to read unit content: " ++ e.cause?.getD ""
  | .reader _ => "Reading unit content failed: " ++ e.cause?.getD ""
  | .source error => error.message
  | .registrationClosed _ _ => "Resolution failed: " ++ e.cause?.getD ""
  | .tableClosed => "Resolution failed: " ++ e.cause?.getD ""

/-- The message and the cause behind it. -/
def chain (e : DeclareError) : List String :=
  e.message :: e.cause?.toList

end DeclareError

structure Outline where
  unit : SourceUnit
  tree : UnitTree
  /-- The entry point, then a method for each function of the tree. -/
  methods : List MethodDeclaration
  deriving Repr

namespace Outline

/-- The method that runs the statements outside functions. -/
def entrypoint : MethodDeclaration where
  name := "entrypoint"
  modifiers := [.publicAccess, .static]
  parameters := [{ name := "args", type := .array .string }]
  returnType := .void

/-- The type an annotation most likely stands for. -/
def guessType (imports : List Import) (package : String) : Option TypeName → TypeRef
  | none => .dynamic
  | some annotation =>
    match builtInType annotation.name with
    | some type => type
    | none =>
      match Import.typeCandidates imports package annotation.name with
      | candidate :: _ => .named candidate
      | [] => .dynamic

def literal? : Expr → Option Instruction
  | .literal value _ => some (.literal value)
  | _ => none

/-- A parameter with its likely type; of the defaults only literals are known already. -/
def guessParameter (imports : List Import) (package : String) (p : Param) : Parameter :=
  ⟨p.name, guessType imports package p.type, p.default.bind literal?⟩

def skeleton (imports : List Import) (package : String) (f : Function) : MethodDeclaration where
  name := f.name
  modifiers := [.publicAccess, .static]
  parameters := f.parameters.map (guessParameter imports package)
  returnType := .void

def ofTree (unit : SourceUnit) (tree : UnitTree) : Outline where
  unit
  tree
  methods := entrypoint :: tree.functions.map (skeleton tree.importTable unit.packageName)

def owner (o : Outline) : String := o.unit.qualifiedName

/-- The type as other units can look it up. -/
def type (o : Outline) : TypeDeclaration where
  qualifiedName := o.owner
  kind := o.unit.kind

/-- Reads a unit; nothing is declared yet. -/
def read (grammar : Grammar) (unit : SourceUnit) : Except (Failure DeclareError) Outline :=
  if unit.kind ≠ .unit then .error (.error (.unsupportedKind unit.kind))
  else
    match unit.content with
    | .unreadable reason => .error (.error (.unreadable reason))
    | .crash message => .error (.error (.reader message))
    | .text source =>
      match grammar source with
      | .ok tree => .ok (ofTree unit tree)
      | .error (.error e) => .error (.error (.source e))
      | .error (.crash message) => .error (.crash message)

end Outline

end UnitCompiler
