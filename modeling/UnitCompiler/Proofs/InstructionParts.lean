import UnitCompiler.Declaration

/-! The instructions that stand inside others, and all those of a declaration. -/

namespace UnitCompiler

namespace Instruction

mutual

def parts : Instruction → List Instruction
  | .literal value => [.literal value]
  | .declare name type value => .declare name type value :: value.parts
  | .access name type => [.access name type]
  | .invoke kind receiver owner name shape arguments =>
    .invoke kind receiver owner name shape arguments :: (partsReceiver receiver ++ partsAll arguments)
  | .stream target => [.stream target]

def partsReceiver : Option Instruction → List Instruction
  | none => []
  | some receiver => receiver.parts

def partsAll : List Instruction → List Instruction
  | [] => []
  | instruction :: rest => instruction.parts ++ partsAll rest

end

theorem partsAll_eq (instructions : List Instruction) : partsAll instructions = instructions.flatMap parts := by
  induction instructions with
  | nil => rfl
  | cons first rest ih => rw [partsAll, ih, List.flatMap_cons]

end Instruction

def Parameter.parts (p : Parameter) : List Instruction :=
  Instruction.partsReceiver p.default

def MethodDeclaration.parts (m : MethodDeclaration) : List Instruction :=
  m.parameters.flatMap Parameter.parts ++ m.body.flatMap Instruction.parts

def Constructor.parts (c : Constructor) : List Instruction :=
  c.parameters.flatMap Parameter.parts ++ c.body.flatMap Instruction.parts

def TypeDeclaration.parts (d : TypeDeclaration) : List Instruction :=
  d.constructors.flatMap Constructor.parts ++ d.methods.flatMap MethodDeclaration.parts

end UnitCompiler
