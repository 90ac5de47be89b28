import UnitCompiler.Proofs.ImageRoundTrip

/-! Images written anew. A payload can be spelled in many ways, and what is read is written in one of
them. That one has no more levels than the text that was read and than there was room for, so an image
that could be read can be read again after it has been written anew. -/

namespace UnitCompiler

namespace Json

/-- The levels that reading a value can use up. -/
def limit (room : Nat) (json : Json) : Nat := min room json.depth

/-- What reading comes to, if it comes to anything, is written with no more levels than the bound. -/
def Within {α : Type} (result : Option α) (toJson : α → Json) (bound : Nat) : Prop :=
  ∀ x, result = some x → (toJson x).depth ≤ bound

namespace Within

variable {α β : Type} {toJson : α → Json} {toJson' : β → Json} {bound bound' : Nat}

protected theorem none : Within (none : Option α) toJson bound := nofun

protected theorem pure {x : α} (fits : (toJson x).depth ≤ bound) : Within (some x) toJson bound := by
  rintro _ ⟨⟩
  exact fits

protected theorem bind {first : Option α} {next : α → Option β} (one : Within first toJson bound)
    (rest : ∀ a, (toJson a).depth ≤ bound → Within (next a) toJson' bound') :
    Within (first >>= next) toJson' bound' := by
  intro y found
  obtain ⟨a, own, found⟩ := Option.bind_eq_some_iff.mp found
  exact rest a (one a own) y found

/-- An alternative with the read value as its content takes one level more. -/
theorem variant {result : Option α} {f : α → β} {name : String} (one : Within result toJson bound)
    (json : ∀ a, toJson' (f a) = .variant name (toJson a)) : Within (result.map f) toJson' (bound + 1) := by
  intro y found
  obtain ⟨a, own, rfl⟩ := Option.map_eq_some_iff.mp found
  rw [json, depth_variant]
  exact Nat.succ_le_succ (one a own)

end Within

/-- What is read is written with no more levels than reading it could use up. -/
def Thrifty {α : Type} (read : Nat → Json → Option α) (toJson : α → Json) : Prop :=
  ∀ room json, Within (read room json) toJson (json.limit room)

theorem Thrifty.of_flat {α : Type} {toJson : α → Json} (flat : ∀ x, (toJson x).depth = 0)
    (read : Nat → Json → Option α) : Thrifty read toJson := by
  intro room json x _
  rw [flat x]
  exact Nat.zero_le _

theorem asString_thrifty : Thrifty (fun _ => asString) ofString :=
  .of_flat depth_ofString _

theorem mem_of_mapM {α β : Type} {read : α → Option β} {items : List α} {xs : List β}
    (found : items.mapM read = some xs) {x : β} (member : x ∈ xs) : ∃ item ∈ items, read item = some x := by
  induction items generalizing xs with
  | nil =>
    rw [List.mapM_nil] at found
    cases found
    cases member
  | cons item items ih =>
    rw [List.mapM_cons] at found
    obtain ⟨first, own, found⟩ := Option.bind_eq_some_iff.mp found
    obtain ⟨others, rest, same⟩ := Option.bind_eq_some_iff.mp found
    cases same
    rcases List.mem_cons.mp member with rfl | later
    · exact ⟨item, List.mem_cons_self, own⟩
    · obtain ⟨source, listed, read⟩ := ih rest later
      exact ⟨source, List.mem_cons_of_mem item listed, read⟩

/-! ## Structures -/

theorem field?_mem {fields : List (Text × Json)} {name : String} {value : Json}
    (found : field? fields name = some (some value)) : ∃ f ∈ fields, f.2 = value := by
  rw [field?] at found
  split at found
  · cases found
  · next field only =>
    cases found
    exact ⟨field, (List.mem_filter.mp (only ▸ List.mem_singleton_self field)).1, rfl⟩
  · cases found

theorem depth_field_lt {fields : List (Text × Json)} {f : Text × Json} (member : f ∈ fields) :
    f.2.depth < (Json.object fields).depth := by
  rw [depth, Nat.lt_succ_iff]
  exact (depthFields_le fields _).mp (Nat.le_refl _) f member

theorem depth_item_lt {items : List Json} {item : Json} (member : item ∈ items) :
    item.depth < (Json.array items).depth := by
  rw [depth, Nat.lt_succ_iff]
  exact (depthItems_le items _).mp (Nat.le_refl _) item member

theorem members?_depth {names : List String} {json : Json} {values : List (Option Json)}
    (found : json.members? names = some values) :
    0 < json.depth ∧ ∀ value, some value ∈ values → value.depth < json.depth := by
  unfold members? at found
  split at found
  · next fields =>
    split at found
    · refine ⟨Nat.succ_pos _, fun value member => ?_⟩
      obtain ⟨name, -, read⟩ := mem_of_mapM found member
      obtain ⟨f, listed, rfl⟩ := field?_mem read
      exact depth_field_lt listed
    · cases found
  · next items =>
    split at found
    · cases found
      refine ⟨Nat.succ_pos _, fun value member => depth_item_lt ?_⟩
      simpa using member
    · cases found
  · cases found

def Inside (room : Nat) (values : List (Option Json)) (bound : Nat) : Prop :=
  ∀ value, some value ∈ values → value.limit room ≤ bound

/-- A structure takes one level around its values, whether it is an object or an array. -/
theorem Within.asStructure {α : Type} {names : List String} {read : Nat → List (Option Json) → Option α}
    {toJson : α → Json} (levels : Nat)
    (each : ∀ room values bound, Inside room values bound →
      Within (read room values) toJson (bound + 1 + levels)) (room : Nat) (json : Json) :
    Within (asStructure room names read json) toJson (json.limit room + levels) := by
  intro x found
  cases room with
  | zero => cases found
  | succ less =>
    obtain ⟨values, listed, found⟩ := Option.bind_eq_some_iff.mp found
    obtain ⟨nested, inside⟩ := members?_depth listed
    have limits : json.limit (less + 1) = min less (json.depth - 1) + 1 := by
      rw [limit]
      omega
    rw [limits]
    refine each less values _ (fun value given => ?_) x found
    have := inside value given
    rw [limit]
    omega

namespace Thrifty

variable {α : Type} {read : Nat → Json → Option α} {toJson : α → Json}

theorem field (thrifty : Thrifty read toJson) {room bound : Nat} {values : List (Option Json)} {json : Json}
    (inside : Inside room values bound) (given : some json ∈ values) :
    Within (read room json) toJson bound :=
  fun x found => Nat.le_trans (thrifty room json x found) (inside json given)

protected theorem asStructure {names : List String} {read : Nat → List (Option Json) → Option α}
    (each : ∀ room values bound, Inside room values bound → Within (read room values) toJson (bound + 1)) :
    Thrifty (fun room => asStructure room names read) toJson :=
  Within.asStructure 0 each

/-! ## Lists and alternatives -/

protected theorem asList (thrifty : Thrifty read toJson) :
    Thrifty (fun room => asList room read) (fun xs => .array (xs.map toJson)) := by
  intro room json xs found
  cases json with
  | array items =>
    cases room with
    | zero => cases found
    | succ less =>
      have levels : (Json.array items).limit (less + 1) = min less (depthItems items) + 1 :=
        Nat.add_min_add_right ..
      rw [levels, depth_array_le, List.forall_mem_map]
      intro x member
      obtain ⟨item, listed, read⟩ := mem_of_mapM found member
      have own := thrifty less item x read
      have inside := (depthItems_le items _).mp (Nat.le_refl _) item listed
      rw [limit] at own
      omega
  | _ => cases found

end Thrifty

theorem limit_variant (name : Text) (content : Json) (room : Nat) :
    (Json.object [(name, content)]).limit (room + 1) = content.limit room + 1 := by
  simp only [limit, depth, depthFields]
  omega

/-- The content of an alternative has one level less, in the room and in the text. -/
theorem asVariant_inside {room : Nat} {json : Json} {name : String} {less : Nat} {content : Json}
    (found : json.asVariant room = some (name, some (less, content))) :
    json.limit room = content.limit less + 1 := by
  unfold asVariant at found
  split at found
  · next text =>
    cases text <;> cases found
  · next text inside =>
    cases room with
    | zero => cases found
    | succ room =>
      obtain ⟨_, -, same⟩ := Option.map_eq_some_iff.mp found
      cases same
      exact limit_variant ..
  · cases found

end Json

open Json (Within Thrifty asString_thrifty asVariant_inside depth_ofFields_le)

/-! ## Types, shapes and literals -/

theorem TypeRef.ofJson?_thrifty : Thrifty TypeRef.ofJson? TypeRef.toJson := by
  intro room json
  fun_induction TypeRef.ofJson? room json with
  | case10 room content _ _ _ _ _ _ _ _ _ ih =>
    rw [Json.limit_variant]
    exact ih.variant fun _ => rfl
  | case11 =>
    rw [Json.limit_variant]
    exact (asString_thrifty _ _).variant fun _ => rfl
  | case12 => exact .none
  | _ => exact .pure (Nat.zero_le _)

theorem Shape.ofJson?_thrifty : Thrifty Shape.ofJson? Shape.toJson := by
  refine .asStructure fun room values bound inside => ?_
  split
  · refine ((TypeRef.ofJson?_thrifty).field inside (by simp)).bind fun _ returnType =>
      ((TypeRef.ofJson?_thrifty).asList.field inside (by simp)).bind fun _ parameterTypes => .pure ?_
    simp [Shape.toJson, depth_ofFields_le, returnType, parameterTypes]
  · exact .none

theorem Literal.depth_toJson (literal : Literal) : literal.toJson.depth = 1 := by
  cases literal with
  | decimal value => rw [Literal.toJson, Json.depth_variant, Json.depth_ofDecimal]
  | _ => rfl

theorem Literal.ofJson?_thrifty : Thrifty Literal.ofJson? Literal.toJson := by
  intro room json x found
  have variant : ∃ name less content, json.asVariant room = some (name, some (less, content)) := by
    unfold Literal.ofJson? at found
    split at found
    all_goals first | exact ⟨_, _, _, ‹_›⟩ | cases found
  obtain ⟨name, less, content, variant⟩ := variant
  rw [x.depth_toJson, asVariant_inside variant]
  exact Nat.le_add_left ..

theorem StandardStream.ofJson?_thrifty : Thrifty StandardStream.ofJson? StandardStream.toJson :=
  .of_flat (by rintro (_ | _) <;> rfl) _

theorem InvokeKind.ofJson?_thrifty : Thrifty InvokeKind.ofJson? InvokeKind.toJson :=
  .of_flat (by rintro (_ | _) <;> rfl) _

/-! ## Instructions -/

namespace Instruction

variable {read : Nat → Json → Option Instruction}

/-- A field that is missing is written as null, which takes no level. -/
theorem optional_within (thrifty : Thrifty read toJson) {room bound : Nat} {values : List (Option Json)}
    {value : Option Json} (inside : Json.Inside room values bound) (given : value ∈ values) :
    Within (Json.asOptional (read room) value) toJsonReceiver bound := by
  unfold Json.asOptional
  split
  · exact .pure (Nat.zero_le bound)
  · exact .pure (Nat.zero_le bound)
  · intro receiver found
    obtain ⟨i, own, rfl⟩ := Option.map_eq_some_iff.mp found
    exact thrifty.field inside given i own

theorem body_thrifty (thrifty : Thrifty read toJson) :
    Thrifty (fun room => Json.asList room read) (fun body => .array (toJsonAll body)) := by
  simp only [toJsonAll_eq]
  exact thrifty.asList

theorem declareOfJson?_within (thrifty : Thrifty read toJson) (room : Nat) (json : Json) :
    Within (declareOfJson? room read json) toJson (json.limit room + 1) := by
  refine .asStructure 1 (fun room values bound inside => ?_) room json
  split
  · refine ((asString_thrifty).field inside (by simp)).bind fun _ _ =>
      ((TypeRef.ofJson?_thrifty).field inside (by simp)).bind fun _ type =>
      (thrifty.field inside (by simp)).bind fun _ value => .pure ?_
    simp [toJson, depth_ofFields_le, type, value]
  · exact .none

theorem accessOfJson?_within (room : Nat) (json : Json) :
    Within (accessOfJson? room json) toJson (json.limit room + 1) := by
  refine .asStructure 1 (fun room values bound inside => ?_) room json
  split
  · refine ((asString_thrifty).field inside (by simp)).bind fun _ _ =>
      ((TypeRef.ofJson?_thrifty).field inside (by simp)).bind fun _ type => .pure ?_
    simp [toJson, depth_ofFields_le, type]
  · exact .none

theorem invokeOfJson?_within (thrifty : Thrifty read toJson) (room : Nat) (json : Json) :
    Within (invokeOfJson? room read json) toJson (json.limit room + 1) := by
  refine .asStructure 1 (fun room values bound inside => ?_) room json
  split
  · refine ((InvokeKind.ofJson?_thrifty).field inside (by simp)).bind fun _ kind =>
      (optional_within thrifty inside (by simp)).bind fun _ receiver =>
      ((TypeRef.ofJson?_thrifty).field inside (by simp)).bind fun _ owner =>
      ((asString_thrifty).field inside (by simp)).bind fun _ _ =>
      ((Shape.ofJson?_thrifty).field inside (by simp)).bind fun _ shape =>
      ((body_thrifty thrifty).field inside (by simp)).bind fun _ arguments => .pure ?_
    simp [toJson, depth_ofFields_le, kind, receiver, owner, shape, arguments]
  · exact .none

theorem ofJsonWithin?_thrifty (depth : Nat) : Thrifty (ofJsonWithin? depth) toJson := by
  induction depth with
  | zero => exact fun _ _ => .none
  | succ depth ih =>
    intro room json
    rw [ofJsonWithin?]
    split
    · next variant =>
      rw [asVariant_inside variant]
      exact ((Literal.ofJson?_thrifty) _ _).variant fun _ => rfl
    · next variant =>
      rw [asVariant_inside variant]
      exact declareOfJson?_within ih _ _
    · next variant =>
      rw [asVariant_inside variant]
      exact accessOfJson?_within _ _
    · next variant =>
      rw [asVariant_inside variant]
      exact invokeOfJson?_within ih _ _
    · next variant =>
      rw [asVariant_inside variant]
      exact ((StandardStream.ofJson?_thrifty) _ _).variant fun _ => rfl
    · exact .none

theorem ofJson?_thrifty : Thrifty ofJson? toJson :=
  fun room => ofJsonWithin?_thrifty (room + 1) room

end Instruction

/-! ## Declarations -/

theorem UnitKind.ofJson?_thrifty : Thrifty UnitKind.ofJson? UnitKind.toJson :=
  .of_flat (by rintro (_ | _) <;> rfl) _

theorem Modifier.ofJson?_thrifty : Thrifty Modifier.ofJson? Modifier.toJson :=
  .of_flat (by rintro (_ | _) <;> rfl) _

theorem Parameter.ofJson?_thrifty : Thrifty Parameter.ofJson? Parameter.toJson := by
  refine .asStructure fun room values bound inside => ?_
  split
  · refine ((asString_thrifty).field inside (by simp)).bind fun _ _ =>
      ((TypeRef.ofJson?_thrifty).field inside (by simp)).bind fun _ type =>
      (Instruction.optional_within Instruction.ofJson?_thrifty inside (by simp)).bind fun _ default =>
      .pure ?_
    simp [Parameter.toJson, depth_ofFields_le, type, default]
  · exact .none

theorem body_thrifty : Thrifty (fun room => Json.asList room Instruction.ofJson?)
    (fun body => .array (Instruction.toJsonAll body)) :=
  Instruction.body_thrifty Instruction.ofJson?_thrifty

theorem MethodDeclaration.ofJson?_thrifty : Thrifty MethodDeclaration.ofJson? MethodDeclaration.toJson := by
  refine .asStructure fun room values bound inside => ?_
  split
  · refine ((asString_thrifty).field inside (by simp)).bind fun _ _ =>
      ((Modifier.ofJson?_thrifty).asList.field inside (by simp)).bind fun _ modifiers =>
      ((Parameter.ofJson?_thrifty).asList.field inside (by simp)).bind fun _ parameters =>
      ((TypeRef.ofJson?_thrifty).field inside (by simp)).bind fun _ returnType =>
      ((body_thrifty).field inside (by simp)).bind fun _ body => .pure ?_
    simp [MethodDeclaration.toJson, depth_ofFields_le, modifiers, parameters, returnType, body]
  · exact .none

theorem Constructor.ofJson?_thrifty : Thrifty Constructor.ofJson? Constructor.toJson := by
  refine .asStructure fun room values bound inside => ?_
  split
  · refine ((Modifier.ofJson?_thrifty).asList.field inside (by simp)).bind fun _ modifiers =>
      ((Parameter.ofJson?_thrifty).asList.field inside (by simp)).bind fun _ parameters =>
      ((body_thrifty).field inside (by simp)).bind fun _ body => .pure ?_
    simp [Constructor.toJson, depth_ofFields_le, modifiers, parameters, body]
  · exact .none

theorem TypeDeclaration.ofJson?_thrifty : Thrifty TypeDeclaration.ofJson? TypeDeclaration.toJson := by
  refine .asStructure fun room values bound inside => ?_
  split
  · refine ((asString_thrifty).field inside (by simp)).bind fun _ _ =>
      ((UnitKind.ofJson?_thrifty).field inside (by simp)).bind fun _ kind =>
      ((Modifier.ofJson?_thrifty).asList.field inside (by simp)).bind fun _ modifiers =>
      ((Constructor.ofJson?_thrifty).asList.field inside (by simp)).bind fun _ constructors =>
      ((MethodDeclaration.ofJson?_thrifty).asList.field inside (by simp)).bind fun _ methods => .pure ?_
    simp [TypeDeclaration.toJson, depth_ofFields_le, kind, modifiers, constructors, methods]
  · exact .none

/-! ## Images -/

namespace Image

theorem ofPayload?_within (json : Json) : Within (ofPayload? json) payload (json.limit maxDepth) := by
  refine Thrifty.asStructure (fun room values bound inside => ?_) maxDepth json
  split
  · refine ((asString_thrifty).field inside (by simp)).bind fun _ _ =>
      ((TypeDeclaration.ofJson?_thrifty).field inside (by simp)).bind fun _ declaration => .pure ?_
    simp [payload, depth_ofFields_le, declaration]
  · exact .none

theorem decode_eq_ok {bytes : List UInt8} {image : Image} (accepted : decode bytes = .ok image) :
    ∃ json, Json.parse (bytes.drop header.length) = some json ∧ ofPayload? json = some image := by
  unfold decode at accepted
  split at accepted
  · next rest =>
    split at accepted
    · cases accepted
    · dsimp only at accepted
      split at accepted
      · cases accepted
      · split at accepted
        · next found =>
          cases accepted
          exact Option.bind_eq_some_iff.mp found
        · cases accepted
  · cases accepted

def renew (bytes : List UInt8) : Except ImageError (List Artifact) := do
  let image ← decode bytes
  generate image.sourceFile image.declaration

theorem renew_of_decode {bytes : List UInt8} {image : Image} (accepted : decode bytes = .ok image) :
    renew bytes = generate image.sourceFile image.declaration := by
  rw [renew, accepted]
  rfl

/-- An accepted image is made anew with no more levels than it was spelled with, and than may be read.
Without decimals the new image reads back as the same, and making it anew once more changes nothing. -/
theorem renew_idempotent (bytes : List UInt8) (image : Image) (accepted : decode bytes = .ok image)
    (complete : Complete image.declaration.qualifiedName) :
    ∃ spelled artifact written,
      Json.parse (bytes.drop header.length) = some spelled ∧
      generate image.sourceFile image.declaration = .ok [artifact] ∧
      Json.parse (artifact.bytes.drop header.length) = some written ∧
      written.depth ≤ spelled.depth ∧ written.depth ≤ 127 ∧
      ((∀ value, .literal (.decimal value) ∉ image.declaration.parts) →
        decode artifact.bytes = .ok image ∧
        renew bytes = .ok [artifact] ∧ renew artifact.bytes = .ok [artifact]) := by
  obtain ⟨spelled, parsed, found⟩ := decode_eq_ok accepted
  have shallow := ofPayload?_within spelled image found
  rw [Json.limit, Nat.le_min] at shallow
  obtain ⟨fits, thrifty⟩ := shallow
  have made : generate image.sourceFile image.declaration =
      .ok [⟨artifactName image.declaration.qualifiedName, image.encode⟩] :=
    if_pos ((isValidName_iff _).mpr complete)
  refine ⟨spelled, _, _, parsed, made, image.parse_payload, thrifty, fits, fun plain => ?_⟩
  have legible : Legible image.declaration.parts := fun value member => absurd member (plain value)
  have again : decode image.encode = .ok image := (decode_encode_eq_ok_iff image).mpr ⟨fits, legible⟩
  exact ⟨again, (renew_of_decode accepted).trans made, (renew_of_decode again).trans made⟩

/-- A payload with an array for an object, fields out of order, an unknown one with many levels, a missing
optional one, objects for plain alternatives, blanks and an escape. -/
def laxPayload : List String :=
  [" [ \"A.fire\", \x7b\"methods\": [[\"f\", ", "[], [\x7b\"ty\": \x7b\"Int\": null\x7d, ",
    "\"name\": \"\\u0061\"\x7d], \"Void\", ", "[]]], \"note\": [[[[[[[[]]]]]]]], ",
    "\"kind\": \x7b\"Unit\": null\x7d, ", "\"constructors\": [], ", "\"modifiers\": [\"Public\"], ",
    "\"qualified_name\": \"m.A\"\x7d ] "]

def lax : List UInt8 := header ++ Json.utf8 (laxPayload.flatMap String.toList)

def laxImage : Image :=
  { sourceFile := "A.fire"
    declaration :=
      { qualifiedName := "m.A"
        kind := .unit
        modifiers := [.publicAccess]
        methods := [{ name := "f", modifiers := [], parameters := [⟨"a", .int, none⟩], returnType := .void }] } }

theorem lax_renewed : ∃ artifact, decode lax = .ok laxImage ∧
    generate "A.fire" laxImage.declaration = .ok [artifact] ∧ artifact.bytes ≠ lax ∧
    decode artifact.bytes = .ok laxImage ∧ renew lax = .ok [artifact] ∧
    renew artifact.bytes = .ok [artifact] := by
  have read : (Json.parse (Json.utf8 (laxPayload.flatMap String.toList))).bind ofPayload? = some laxImage := by
    decide +kernel
  have accepted : decode lax = .ok laxImage := by rw [lax, decode_header, read]
  have first : laxImage.encode[6]? ≠ lax[6]? := by decide +kernel
  obtain ⟨_, artifact, _, -, made, -, -, -, same⟩ := renew_idempotent lax laxImage accepted
    ((isValidName_iff "m.A").mp (by decide))
  have plain (value : Binary64) : .literal (.decimal value) ∉ laxImage.declaration.parts := by
    simp [laxImage, TypeDeclaration.parts, MethodDeclaration.parts, Parameter.parts, Instruction.partsReceiver]
  obtain ⟨again, renewed, fixed⟩ := same plain
  refine ⟨artifact, accepted, made, fun unchanged => ?_, again, renewed, fixed⟩
  rw [generate, if_pos (by decide)] at made
  cases made
  exact first (congrArg (·[6]?) unchanged)

end Image

end UnitCompiler
