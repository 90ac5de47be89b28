import UnitCompiler.Image
import UnitCompiler.Proofs.Dotted
import UnitCompiler.Proofs.ImageRecovery

/-! Images read back. The text of an image is the payload it was made from, and the payload gives the
source file and the declaration back if it nests no deeper than the reader goes. -/

namespace UnitCompiler

/-! ## Written payloads -/

namespace Json

theorem Written.ofFields {fields : List (String × Json)} (each : ∀ f ∈ fields, f.2.Written) :
    (Json.ofFields fields).Written := by
  refine .object _ ?_ ?_ <;> rw [List.forall_mem_map]
  · exact fun _ _ => rfl
  · exact each

theorem Written.map {α : Type} {toJson : α → Json} (written : ∀ x, (toJson x).Written) (items : List α) :
    (Json.array (items.map toJson)).Written :=
  .array _ (List.forall_mem_map.mpr fun x _ => written x)

theorem Written.variant {content : Json} (written : content.Written) (name : String) :
    (Json.variant name content).Written :=
  .ofFields (by simpa using written)

end Json

open Json (Written)

theorem TypeRef.toJson_written (type : TypeRef) : type.toJson.Written := by
  induction type with
  | array element ih => exact ih.variant "Array"
  | named name => exact (Written.text name).variant "Named"
  | _ => exact .text _

theorem Literal.toJson_written (literal : Literal) : literal.toJson.Written := by
  cases literal with
  | string value => exact (Written.text value).variant "String"
  | bool value => exact (Written.bool value).variant "Bool"
  | int value => exact (Written.number _ (Json.Number.ofInt_written value.toInt)).variant "Int"
  | decimal value => exact (Json.ofDecimal_written value).variant "Decimal"
  | char value => exact (Written.text _).variant "Char"

theorem Shape.toJson_written (shape : Shape) : shape.toJson.Written := by
  refine .ofFields ?_
  simp only [List.forall_mem_cons]
  exact ⟨shape.returnType.toJson_written, .map TypeRef.toJson_written _, nofun⟩

namespace Instruction

theorem invoke_written (kind : InvokeKind) {receiver : Option Instruction} (owner : TypeRef)
    (name : String) (shape : Shape) {arguments : List Instruction}
    (target : (toJsonReceiver receiver).Written) (each : ∀ json ∈ toJsonAll arguments, json.Written) :
    (invoke kind receiver owner name shape arguments).toJson.Written := by
  refine Written.variant (.ofFields ?_) "Invoke"
  simp only [List.forall_mem_cons]
  exact ⟨by cases kind <;> exact .text _, target, owner.toJson_written, .text name, shape.toJson_written,
    .array _ each, nofun⟩

mutual

theorem toJson_written : ∀ i : Instruction, i.toJson.Written
  | .literal value => value.toJson_written.variant "Literal"
  | .declare name type value => by
    refine Written.variant (.ofFields ?_) "VariableDeclaration"
    simp only [List.forall_mem_cons]
    exact ⟨.text name, type.toJson_written, value.toJson_written, nofun⟩
  | .access name type => by
    refine Written.variant (.ofFields ?_) "VariableAccess"
    simp only [List.forall_mem_cons]
    exact ⟨.text name, type.toJson_written, nofun⟩
  | .invoke kind receiver owner name shape arguments =>
    invoke_written kind owner name shape (toJsonReceiver_written receiver) (toJsonAll_written arguments)
  | .stream target => Written.variant (by cases target <;> exact .text _) "StandardStream"

theorem toJsonReceiver_written : ∀ receiver : Option Instruction, (toJsonReceiver receiver).Written
  | none => .null
  | some receiver => receiver.toJson_written

theorem toJsonAll_written : ∀ instructions : List Instruction, ∀ json ∈ toJsonAll instructions, json.Written
  | [] => nofun
  | first :: rest => List.forall_mem_cons.mpr ⟨first.toJson_written, toJsonAll_written rest⟩

end

end Instruction

theorem Modifier.toJson_written (modifier : Modifier) : modifier.toJson.Written := by
  cases modifier <;> exact .text _

theorem Parameter.toJson_written (p : Parameter) : p.toJson.Written := by
  refine .ofFields ?_
  simp only [List.forall_mem_cons]
  exact ⟨.text p.name, p.type.toJson_written, Instruction.toJsonReceiver_written p.default, nofun⟩

theorem MethodDeclaration.toJson_written (m : MethodDeclaration) : m.toJson.Written := by
  refine .ofFields ?_
  simp only [List.forall_mem_cons]
  exact ⟨.text m.name, .map Modifier.toJson_written _, .map Parameter.toJson_written _,
    m.returnType.toJson_written, .array _ (Instruction.toJsonAll_written m.body), nofun⟩

theorem Constructor.toJson_written (c : Constructor) : c.toJson.Written := by
  refine .ofFields ?_
  simp only [List.forall_mem_cons]
  exact ⟨.map Modifier.toJson_written _, .map Parameter.toJson_written _,
    .array _ (Instruction.toJsonAll_written c.body), nofun⟩

theorem TypeDeclaration.toJson_written (d : TypeDeclaration) : d.toJson.Written := by
  refine .ofFields ?_
  simp only [List.forall_mem_cons]
  exact ⟨.text d.qualifiedName, by cases d.kind <;> exact .text _, .map Modifier.toJson_written _,
    .map Constructor.toJson_written _, .map MethodDeclaration.toJson_written _, nofun⟩

namespace Image

theorem payload_written (image : Image) : image.payload.Written := by
  refine .ofFields ?_
  simp only [List.forall_mem_cons]
  exact ⟨.text image.sourceFile, image.declaration.toJson_written, nofun⟩

theorem parse_payload (image : Image) : Json.parse (image.encode.drop header.length) = some image.payload :=
  Json.parse_bytes image.payload_written

/-! ## Reading images -/

theorem payload_recovers (image : Image) :
    Recovers True (ofPayload? image.payload) image (image.payload.depth ≤ maxDepth)
      image.declaration.parts := by
  unfold ofPayload?
  generalize maxDepth = room
  refine Recovers.asStructure rfl (by simp) fun room _ => ?_
  refine ((asString_recovers image.sourceFile).bind fun _ =>
    (image.declaration.toJson_recovers room).bind fun _ => .pure ?_).congr ?_ ?_
  · cases image
    simp
  · simp
  · simp

theorem decode_header (rest : List UInt8) : decode (header ++ rest) =
    match (Json.parse rest).bind ofPayload? with
    | some image => .ok image
    | none => .error .malformedPayload := by
  cases read : (Json.parse rest).bind ofPayload? <;> simp [decode, header, magic, version, read]

theorem decode_encode (image : Image) : decode image.encode =
    match ofPayload? image.payload with
    | some image => .ok image
    | none => .error .malformedPayload := by
  rw [encode, decode_header, Json.parse_bytes image.payload_written, Option.bind_some]

theorem decode_encode_eq_ok_iff (image : Image) : decode image.encode = .ok image ↔
    image.payload.depth ≤ maxDepth ∧ Legible image.declaration.parts := by
  rw [decode_encode]
  have exact := image.payload_recovers.exact
  simp only [true_and] at exact
  rw [← exact]
  cases ofPayload? image.payload <;> simp

theorem decode_encode_of_deep (image : Image) (deep : maxDepth < image.payload.depth) :
    decode image.encode = .error .malformedPayload := by
  have none : ofPayload? image.payload = none := by
    cases read : ofPayload? image.payload with
    | none => rfl
    | some other => exact absurd (image.payload_recovers.bounded other read) (Nat.not_le.mpr deep)
  rw [decode_encode, none]

/-! ## Names -/

/-- A name that is there with all its segments. -/
def Complete (name : String) : Prop :=
  name ≠ "" ∧ [] ∉ name.toList.splitOn '.'

theorem isValidName_iff (name : String) : isValidName name = true ↔ Complete name := by
  have each : isValidName name = true ↔ ∀ piece ∈ Text.pieces '.' name.toList, piece ≠ [] := by
    simp [isValidName, Text.segments]
  have there : [] ∉ name.toList.splitOn '.' → name ≠ "" := by
    rintro segments rfl
    exact segments (by simp)
  rw [each, Complete, and_iff_right_of_imp there, ← Text.pieces_eq_splitOn]
  constructor
  · intro each member
    exact each [] member rfl
  · rintro none piece member rfl
    exact none member

theorem generate_payload {sourceFile : String} {declaration : TypeDeclaration} {artifact : Artifact}
    {json : Json} (made : generate sourceFile declaration = .ok [artifact])
    (parsed : Json.parse (artifact.bytes.drop header.length) = some json) :
    json = payload ⟨sourceFile, declaration⟩ := by
  rw [generate] at made
  split at made
  · cases made
    exact Option.some.inj (parsed.symm.trans (parse_payload _))
  · cases made

/-- One image is made of a declaration with a complete name, and none of any other. Reading it gives a
declaration without decimals back exactly if its text nests no deeper than 127 levels. -/
theorem generate_round_trip (sourceFile : String) (declaration : TypeDeclaration) :
    (Complete declaration.qualifiedName → ∃ artifact json,
      generate sourceFile declaration = .ok [artifact] ∧
      Json.parse (artifact.bytes.drop header.length) = some json ∧
      ((∀ value, .literal (.decimal value) ∉ declaration.parts) →
        decode artifact.bytes =
          if json.depth ≤ 127 then .ok ⟨sourceFile, declaration⟩ else .error .malformedPayload)) ∧
    (¬Complete declaration.qualifiedName →
      ∃ reason, generate sourceFile declaration = .error (.invalidDeclaration reason)) := by
  rw [← isValidName_iff, generate]
  constructor
  · intro valid
    refine ⟨_, _, if_pos valid, parse_payload ⟨sourceFile, declaration⟩, fun plain => ?_⟩
    have legible : Legible declaration.parts := fun value member => absurd member (plain value)
    split
    · next fits => exact (decode_encode_eq_ok_iff _).mpr ⟨fits, legible⟩
    · next deep => exact decode_encode_of_deep _ (Nat.not_le.mp deep)
  · intro invalid
    exact ⟨_, if_neg invalid⟩

def nested (levels : Nat) : TypeDeclaration :=
  { qualifiedName := "m.A"
    kind := .unit
    methods := [{ name := "f", parameters := [], returnType := Nat.repeat .array levels .int }] }

theorem nested_plain (levels : Nat) (value : Binary64) : .literal (.decimal value) ∉ (nested levels).parts := by
  simp [nested, TypeDeclaration.parts, MethodDeclaration.parts]

theorem arrays_depth (levels : Nat) : (Nat.repeat TypeRef.array levels .int).toJson.depth = levels := by
  induction levels with
  | zero => rfl
  | succ levels ih => rw [Nat.repeat, TypeRef.toJson, Json.depth_variant, ih]

/-- Four levels stand around the type. -/
theorem nested_depth (sourceFile : String) (levels : Nat) :
    (payload ⟨sourceFile, nested levels⟩).depth = max levels 1 + 4 := by
  simp only [payload, Json.ofFields, TypeDeclaration.toJson, nested, UnitKind.toJson, List.map_cons,
    Modifier.toJson, List.map_nil, MethodDeclaration.toJson, Instruction.toJsonAll, Json.depth,
    Json.depthFields, Json.depth_ofString, Json.depthItems, arrays_depth]
  omega

theorem nested_round_trip :
    (∃ artifact, generate "A.fire" (nested 123) = .ok [artifact] ∧
      decode artifact.bytes = .ok ⟨"A.fire", nested 123⟩) ∧
    (∃ artifact, generate "A.fire" (nested 124) = .ok [artifact] ∧
      decode artifact.bytes = .error .malformedPayload) ∧
    ∃ reason, generate "A.fire" { nested 124 with qualifiedName := "m..A" } =
      .error (.invalidDeclaration reason) := by
  have complete : Complete "m.A" := (isValidName_iff "m.A").mp (by decide)
  refine ⟨?_, ?_, (generate_round_trip _ _).2 fun gap => ?_⟩
  · obtain ⟨artifact, json, made, parsed, read⟩ := (generate_round_trip "A.fire" (nested 123)).1 complete
    have fits : json.depth ≤ 127 := by rw [generate_payload made parsed, nested_depth]; decide
    exact ⟨artifact, made, (read (nested_plain 123)).trans (if_pos fits)⟩
  · obtain ⟨artifact, json, made, parsed, read⟩ := (generate_round_trip "A.fire" (nested 124)).1 complete
    have deep : ¬json.depth ≤ 127 := by rw [generate_payload made parsed, nested_depth]; decide
    exact ⟨artifact, made, (read (nested_plain 124)).trans (if_neg deep)⟩
  · exact absurd ((isValidName_iff "m..A").mpr gap) (by decide)

end Image

end UnitCompiler
