import UnitCompiler.Declaration
import UnitCompiler.Json.Number

/-!
# Declarations from JSON

Reading is more lenient than writing. Unknown fields are skipped, a missing optional field counts as
null, a structure may also be an array of exactly its fields, and an alternative without content may
be an object holding null. A repeated field is refused. `room` is the number of arrays and objects
that may still open around what is being read; skipped values need none.
-/

namespace UnitCompiler

namespace Json

/-- The value of a field, `none` if it is missing. -/
def field? (fields : List (Text × Json)) (name : String) : Option (Option Json) :=
  match fields.filter (·.1 == some name) with
  | [] => some none
  | [field] => some (some field.2)
  | _ => none

/-- The values of a structure's fields. -/
def members? (names : List String) : Json → Option (List (Option Json))
  | .object fields =>
    if fields.all (·.1.isSome) then names.mapM (field? fields) else none
  | .array items => if items.length = names.length then some (items.map some) else none
  | _ => none

/-- Reads a structure with room for one more level around its fields. -/
def asStructure {α : Type} (room : Nat) (names : List String)
    (read : Nat → List (Option Json) → Option α) (json : Json) : Option α :=
  match room with
  | 0 => none
  | room + 1 => (json.members? names).bind (read room)

/-- Reads a list with room for one more level around its items. -/
def asList {α : Type} (room : Nat) (read : Nat → Json → Option α) : Json → Option (List α)
  | .array items =>
    match room with
    | 0 => none
    | room + 1 => items.mapM (read room)
  | _ => none

/-- An alternative: its name, and its content with the room left inside. -/
def asVariant (room : Nat) : Json → Option (String × Option (Nat × Json))
  | .text name => name.map fun name => (name, none)
  | .object [(name, content)] =>
    match room with
    | 0 => none
    | room + 1 => name.map fun name => (name, some (room, content))
  | _ => none

/-- An alternative without content. -/
def asPlainVariant (room : Nat) (json : Json) : Option String :=
  match json.asVariant room with
  | some (name, none) => some name
  | some (name, some (_, .null)) => some name
  | _ => none

def asString : Json → Option String
  | .text value => value
  | _ => none

def asBool : Json → Option Bool
  | .bool value => some value
  | _ => none

def asInt64 : Json → Option Int64
  | .number value => value.toInt64?
  | _ => none

def asDecimal : Json → Option Binary64
  | .number value => value.toDecimal?
  | _ => none

/-- A text of exactly one character. -/
def asChar (json : Json) : Option Char :=
  match (json.asString).map String.toList with
  | some [c] => some c
  | _ => none

end Json

open Json (asStructure asList asVariant asPlainVariant)

def TypeRef.ofJson? : Nat → Json → Option TypeRef
  | room, json =>
    match json.asPlainVariant room with
    | some "Void" => some .void
    | some "String" => some .string
    | some "Int" => some .int
    | some "Long" => some .long
    | some "Bool" => some .bool
    | some "Decimal" => some .decimal
    | some "Char" => some .char
    | some "Byte" => some .byte
    | some "Dynamic" => some .dynamic
    | _ =>
      match json, room with
      | .object [(some "Array", content)], room + 1 => (TypeRef.ofJson? room content).map .array
      | .object [(some "Named", content)], _ + 1 => content.asString.map .named
      | _, _ => none

def Literal.ofJson? (room : Nat) (json : Json) : Option Literal :=
  match json.asVariant room with
  | some ("String", some (_, content)) => content.asString.map .string
  | some ("Bool", some (_, content)) => content.asBool.map .bool
  | some ("Int", some (_, content)) => content.asInt64.map .int
  | some ("Decimal", some (_, content)) => content.asDecimal.map .decimal
  | some ("Char", some (_, content)) => content.asChar.map .char
  | _ => none

def Shape.ofJson? (room : Nat) : Json → Option Shape :=
  asStructure room ["return_type", "parameter_types"] fun room => fun
    | [some returnType, some parameterTypes] => do
      return ⟨← TypeRef.ofJson? room returnType, ← asList room TypeRef.ofJson? parameterTypes⟩
    | _ => none

def StandardStream.ofJson? (room : Nat) (json : Json) : Option StandardStream :=
  match json.asPlainVariant room with
  | some "Out" => some .out
  | some "Err" => some .err
  | _ => none

def InvokeKind.ofJson? (room : Nat) (json : Json) : Option InvokeKind :=
  match json.asPlainVariant room with
  | some "Virtual" => some .virtual
  | some "Static" => some .static
  | _ => none

/-- An optional value: missing or null means none. -/
def Json.asOptional {α : Type} (read : Json → Option α) : Option Json → Option (Option α)
  | none => some none
  | some .null => some none
  | some json => (read json).map some

/-- The fields of a variable declaration, given how its value is read. -/
def Instruction.declareOfJson? (room : Nat) (read : Nat → Json → Option Instruction) :
    Json → Option Instruction :=
  asStructure room ["name", "ty", "value"] fun room => fun
    | [some name, some type, some value] => do
      return .declare (← name.asString) (← TypeRef.ofJson? room type) (← read room value)
    | _ => none

def Instruction.accessOfJson? (room : Nat) : Json → Option Instruction :=
  asStructure room ["name", "ty"] fun room => fun
    | [some name, some type] => do
      return .access (← name.asString) (← TypeRef.ofJson? room type)
    | _ => none

def Instruction.invokeOfJson? (room : Nat) (read : Nat → Json → Option Instruction) :
    Json → Option Instruction :=
  asStructure room ["kind", "receiver", "owner", "name", "shape", "arguments"] fun room => fun
    | [some kind, receiver, some owner, some name, some shape, some arguments] => do
      return .invoke (← InvokeKind.ofJson? room kind) (← Json.asOptional (read room) receiver)
        (← TypeRef.ofJson? room owner) (← name.asString) (← Shape.ofJson? room shape)
        (← asList room read arguments)
    | _ => none

/-- Reads an instruction, `depth` being a bound on how deep instructions nest. -/
def Instruction.ofJsonWithin? : Nat → Nat → Json → Option Instruction
  | 0, _, _ => none
  | depth + 1, room, json =>
    match json.asVariant room with
    | some ("Literal", some (room, content)) => (Literal.ofJson? room content).map .literal
    | some ("VariableDeclaration", some (room, content)) =>
      declareOfJson? room (ofJsonWithin? depth) content
    | some ("VariableAccess", some (room, content)) => accessOfJson? room content
    | some ("Invoke", some (room, content)) => invokeOfJson? room (ofJsonWithin? depth) content
    | some ("StandardStream", some (room, content)) =>
      (StandardStream.ofJson? room content).map .stream
    | _ => none

/-- An instruction opens a level before it holds another one, so the room bounds the nesting. -/
def Instruction.ofJson? (room : Nat) (json : Json) : Option Instruction :=
  Instruction.ofJsonWithin? (room + 1) room json

def UnitKind.ofJson? (room : Nat) (json : Json) : Option UnitKind :=
  match json.asPlainVariant room with
  | some "Object" => some .object
  | some "Class" => some .classType
  | some "Interface" => some .interface
  | some "Rule" => some .rule
  | some "Unit" => some .unit
  | _ => none

def Modifier.ofJson? (room : Nat) (json : Json) : Option Modifier :=
  match json.asPlainVariant room with
  | some "Public" => some .publicAccess
  | some "Private" => some .privateAccess
  | some "Static" => some .static
  | some "Final" => some .final
  | some "Synthetic" => some .synthetic
  | _ => none

def Parameter.ofJson? (room : Nat) : Json → Option Parameter :=
  asStructure room ["name", "ty", "default"] fun room => fun
    | [some name, some type, default] => do
      return ⟨← name.asString, ← TypeRef.ofJson? room type,
        ← Json.asOptional (Instruction.ofJson? room) default⟩
    | _ => none

def MethodDeclaration.ofJson? (room : Nat) : Json → Option MethodDeclaration :=
  asStructure room ["name", "modifiers", "parameters", "return_type", "body"] fun room => fun
    | [some name, some modifiers, some parameters, some returnType, some body] => do
      return ⟨← name.asString, ← asList room Modifier.ofJson? modifiers,
        ← asList room Parameter.ofJson? parameters, ← TypeRef.ofJson? room returnType,
        ← asList room Instruction.ofJson? body⟩
    | _ => none

def Constructor.ofJson? (room : Nat) : Json → Option Constructor :=
  asStructure room ["modifiers", "parameters", "body"] fun room => fun
    | [some modifiers, some parameters, some body] => do
      return ⟨← asList room Modifier.ofJson? modifiers, ← asList room Parameter.ofJson? parameters,
        ← asList room Instruction.ofJson? body⟩
    | _ => none

def TypeDeclaration.ofJson? (room : Nat) : Json → Option TypeDeclaration :=
  asStructure room ["qualified_name", "kind", "modifiers", "constructors", "methods"] fun room => fun
    | [some qualifiedName, some kind, some modifiers, some constructors, some methods] => do
      return ⟨← qualifiedName.asString, ← UnitKind.ofJson? room kind,
        ← asList room Modifier.ofJson? modifiers, ← asList room Constructor.ofJson? constructors,
        ← asList room MethodDeclaration.ofJson? methods⟩
    | _ => none

end UnitCompiler
