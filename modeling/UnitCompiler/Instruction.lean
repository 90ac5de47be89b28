import UnitCompiler.Binary64

/-!
# Types and instructions

Method bodies are lists of instructions. Every instruction has a static type; a declaration of a
variable has none of its own and counts as `Void`.
-/

namespace UnitCompiler

inductive TypeRef where
  | void
  | string
  | int
  | long
  | bool
  | decimal
  | char
  | byte
  /-- The type of a value about which nothing is known. -/
  | dynamic
  | array (element : TypeRef)
  /-- A declared type, by its qualified name. -/
  | named (name : String)
  deriving DecidableEq, Repr

def TypeRef.describe : TypeRef → String
  | .void => "Void"
  | .string => "String"
  | .int => "Int"
  | .long => "Long"
  | .bool => "Boolean"
  | .decimal => "Decimal"
  | .char => "Char"
  | .byte => "Byte"
  | .dynamic => "dynamic"
  | .array element => element.describe ++ "[]"
  | .named name => name

inductive Literal where
  | string (value : String)
  | bool (value : Bool)
  | int (value : Int64)
  | decimal (value : Binary64)
  | char (value : Char)
  deriving DecidableEq, Repr

def Literal.typeRef : Literal → TypeRef
  | .string _ => .string
  | .bool _ => .bool
  | .int _ => .int
  | .decimal _ => .decimal
  | .char _ => .char

/-- The return and parameter types of a method. -/
structure Shape where
  returnType : TypeRef
  parameterTypes : List TypeRef
  deriving DecidableEq, Repr

def Shape.describe (s : Shape) : String :=
  "(" ++ ", ".intercalate (s.parameterTypes.map TypeRef.describe) ++ ") -> " ++
    s.returnType.describe

inductive StandardStream where
  | out
  | err
  deriving DecidableEq, Repr

inductive InvokeKind where
  | virtual
  | static
  deriving DecidableEq, Repr

inductive Instruction where
  | literal (value : Literal)
  | declare (name : String) (type : TypeRef) (value : Instruction)
  | access (name : String) (type : TypeRef)
  | invoke (kind : InvokeKind) (receiver : Option Instruction) (owner : TypeRef) (name : String)
      (shape : Shape) (arguments : List Instruction)
  | stream (stream : StandardStream)
  deriving Repr

/-- The type whose methods write to a standard stream. -/
def printStream : TypeRef := .named "firefly.io.PrintStream"

def Instruction.typeRef : Instruction → TypeRef
  | .literal value => value.typeRef
  | .declare _ _ _ => .void
  | .access _ type => type
  | .invoke _ _ _ _ shape _ => shape.returnType
  | .stream _ => printStream

/-- The name of the method an instruction invokes. -/
def Instruction.invoked : Instruction → Option String
  | .invoke _ _ _ name _ _ => some name
  | _ => none

namespace Instruction

mutual

def decideEq : (a b : Instruction) → Decidable (a = b)
  | .literal v, .literal w => decidable_of_iff (v = w) (by simp)
  | .declare n t v, .declare m u w =>
    match decideEq v w with
    | isTrue h => decidable_of_iff (n = m ∧ t = u) (by simp [h])
    | isFalse h => isFalse (by simp [h])
  | .access n t, .access m u => decidable_of_iff (n = m ∧ t = u) (by simp)
  | .invoke k r o n s as, .invoke l q p m t bs =>
    match decideEqReceiver r q, decideEqAll as bs with
    | isTrue h, isTrue g => decidable_of_iff (k = l ∧ o = p ∧ n = m ∧ s = t) (by simp [h, g])
    | isFalse h, _ => isFalse (by simp [h])
    | _, isFalse h => isFalse (by simp [h])
  | .stream s, .stream t => decidable_of_iff (s = t) (by simp)
  | .literal _, .declare .. | .literal _, .access .. | .literal _, .invoke ..
  | .literal _, .stream _ => isFalse (by simp)
  | .declare .., .literal _ | .declare .., .access .. | .declare .., .invoke ..
  | .declare .., .stream _ => isFalse (by simp)
  | .access .., .literal _ | .access .., .declare .. | .access .., .invoke ..
  | .access .., .stream _ => isFalse (by simp)
  | .invoke .., .literal _ | .invoke .., .declare .. | .invoke .., .access ..
  | .invoke .., .stream _ => isFalse (by simp)
  | .stream _, .literal _ | .stream _, .declare .. | .stream _, .access ..
  | .stream _, .invoke .. => isFalse (by simp)

def decideEqReceiver : (a b : Option Instruction) → Decidable (a = b)
  | none, none => isTrue rfl
  | some a, some b =>
    match decideEq a b with
    | isTrue h => isTrue (by simp [h])
    | isFalse h => isFalse (by simp [h])
  | none, some _ => isFalse (by simp)
  | some _, none => isFalse (by simp)

def decideEqAll : (as bs : List Instruction) → Decidable (as = bs)
  | [], [] => isTrue rfl
  | a :: as, b :: bs =>
    match decideEq a b, decideEqAll as bs with
    | isTrue h, isTrue g => isTrue (by simp [h, g])
    | isFalse h, _ => isFalse (by simp [h])
    | _, isFalse h => isFalse (by simp [h])
  | [], _ :: _ => isFalse (by simp)
  | _ :: _, [] => isFalse (by simp)

end

instance : DecidableEq Instruction := decideEq

end Instruction

end UnitCompiler
