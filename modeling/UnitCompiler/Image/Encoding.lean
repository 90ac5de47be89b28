import UnitCompiler.Declaration
import UnitCompiler.Json.Number

/-!
# Declarations as JSON

A structure is an object with all its fields in order, an absent optional one as null. An
alternative without content is its name, any other an object with its name as the only field.
-/

namespace UnitCompiler

def Json.variant (name : String) (content : Json) : Json :=
  .ofFields [(name, content)]

def TypeRef.toJson : TypeRef → Json
  | .void => .ofString "Void"
  | .string => .ofString "String"
  | .int => .ofString "Int"
  | .long => .ofString "Long"
  | .bool => .ofString "Bool"
  | .decimal => .ofString "Decimal"
  | .char => .ofString "Char"
  | .byte => .ofString "Byte"
  | .dynamic => .ofString "Dynamic"
  | .array element => .variant "Array" element.toJson
  | .named name => .variant "Named" (.ofString name)

def Literal.toJson : Literal → Json
  | .string value => .variant "String" (.ofString value)
  | .bool value => .variant "Bool" (.bool value)
  | .int value => .variant "Int" (.ofInt value.toInt)
  | .decimal value => .variant "Decimal" (.ofDecimal value)
  | .char value => .variant "Char" (.ofString (String.ofList [value]))

def Shape.toJson (s : Shape) : Json :=
  .ofFields [("return_type", s.returnType.toJson),
    ("parameter_types", .array (s.parameterTypes.map TypeRef.toJson))]

def StandardStream.toJson : StandardStream → Json
  | .out => .ofString "Out"
  | .err => .ofString "Err"

def InvokeKind.toJson : InvokeKind → Json
  | .virtual => .ofString "Virtual"
  | .static => .ofString "Static"

namespace Instruction

mutual

def toJson : Instruction → Json
  | .literal value => .variant "Literal" value.toJson
  | .declare name type value =>
    .variant "VariableDeclaration"
      (.ofFields [("name", .ofString name), ("ty", type.toJson), ("value", value.toJson)])
  | .access name type =>
    .variant "VariableAccess" (.ofFields [("name", .ofString name), ("ty", type.toJson)])
  | .invoke kind receiver owner name shape arguments =>
    .variant "Invoke"
      (.ofFields [("kind", kind.toJson), ("receiver", toJsonReceiver receiver),
        ("owner", owner.toJson), ("name", .ofString name), ("shape", shape.toJson),
        ("arguments", .array (toJsonAll arguments))])
  | .stream target => .variant "StandardStream" target.toJson

def toJsonReceiver : Option Instruction → Json
  | none => .null
  | some receiver => receiver.toJson

def toJsonAll : List Instruction → List Json
  | [] => []
  | instruction :: rest => instruction.toJson :: toJsonAll rest

end

end Instruction

def UnitKind.toJson : UnitKind → Json
  | .object => .ofString "Object"
  | .classType => .ofString "Class"
  | .interface => .ofString "Interface"
  | .rule => .ofString "Rule"
  | .unit => .ofString "Unit"

def Modifier.toJson : Modifier → Json
  | .publicAccess => .ofString "Public"
  | .privateAccess => .ofString "Private"
  | .static => .ofString "Static"
  | .final => .ofString "Final"
  | .synthetic => .ofString "Synthetic"

def Parameter.toJson (p : Parameter) : Json :=
  .ofFields [("name", .ofString p.name), ("ty", p.type.toJson),
    ("default", Instruction.toJsonReceiver p.default)]

def MethodDeclaration.toJson (m : MethodDeclaration) : Json :=
  .ofFields [("name", .ofString m.name), ("modifiers", .array (m.modifiers.map Modifier.toJson)),
    ("parameters", .array (m.parameters.map Parameter.toJson)),
    ("return_type", m.returnType.toJson), ("body", .array (Instruction.toJsonAll m.body))]

def Constructor.toJson (c : Constructor) : Json :=
  .ofFields [("modifiers", .array (c.modifiers.map Modifier.toJson)),
    ("parameters", .array (c.parameters.map Parameter.toJson)),
    ("body", .array (Instruction.toJsonAll c.body))]

def TypeDeclaration.toJson (d : TypeDeclaration) : Json :=
  .ofFields [("qualified_name", .ofString d.qualifiedName), ("kind", d.kind.toJson),
    ("modifiers", .array (d.modifiers.map Modifier.toJson)),
    ("constructors", .array (d.constructors.map Constructor.toJson)),
    ("methods", .array (d.methods.map MethodDeclaration.toJson))]

end UnitCompiler
