import UnitCompiler.Image.Decoding
import UnitCompiler.Image.Encoding
import UnitCompiler.Proofs.InstructionParts
import UnitCompiler.Proofs.Numerals

/-! Declarations are recovered from their JSON. Reading gives a declaration back if the levels of its
JSON fit in the room there is and its decimals read back as they are; without the room it gives
nothing. -/

namespace UnitCompiler

def Binary64.Legible (d : Binary64) : Prop := (Json.ofDecimal d).asDecimal = some d

instance (d : Binary64) : Decidable d.Legible := inferInstanceAs (Decidable (_ = _))

/-- All decimals among some instructions read back as they are. -/
def Legible (parts : List Instruction) : Prop :=
  ∀ d, .literal (.decimal d) ∈ parts → d.Legible

def Instruction.decimal? : Instruction → Option Binary64
  | .literal (.decimal value) => some value
  | _ => none

theorem Instruction.decimal?_eq_some {i : Instruction} {d : Binary64} :
    i.decimal? = some d ↔ i = .literal (.decimal d) := by
  constructor
  · unfold decimal?
    split <;> simp
  · rintro rfl
    rfl

instance (parts : List Instruction) : Decidable (Legible parts) :=
  decidable_of_iff (∀ i ∈ parts, ∀ d ∈ i.decimal?, d.Legible)
    ⟨fun all d member => all _ member d rfl,
      fun all _ member d found => all d (Instruction.decimal?_eq_some.mp found ▸ member)⟩

theorem legible_nil : Legible [] := by
  simp [Legible]

theorem legible_append {left right : List Instruction} :
    Legible (left ++ right) ↔ Legible left ∧ Legible right := by
  simp only [Legible, List.mem_append, or_imp, forall_and]

/-- What reading comes to: a result only if the text fits, and the expected one exactly if it is the
same, fits and all decimals are legible. -/
structure Recovers {α : Type} (same : Prop) (result : Option α) (x : α) (fits : Prop)
    (parts : List Instruction) : Prop where
  bounded : ∀ y, result = some y → fits
  exact : result = some x ↔ same ∧ fits ∧ Legible parts

namespace Recovers

variable {α β : Type} {same fits more : Prop} {a : α} {x : β} {parts others : List Instruction}

theorem missing {result : Option α} (read : result = none) (tight : ¬fits) :
    Recovers same result a fits parts := by
  subst read
  exact ⟨nofun, by simp [tight]⟩

theorem found {result : Option α} (read : result = some a) (fit : fits) (legible : Legible parts) :
    Recovers True result a fits parts := by
  subst read
  exact ⟨fun _ _ => fit, by simp [fit, legible]⟩

protected theorem pure {y : α} (equal : y = a ↔ same) : Recovers same (some y) a True [] :=
  ⟨fun _ _ => trivial, by simp [equal, legible_nil]⟩

protected theorem bind {first : Option α} {next : α → Option β} (one : Recovers True first a fits parts)
    (rest : ∀ b, Recovers (same ∧ b = a) (next b) x more others) :
    Recovers same (first >>= next) x (fits ∧ more) (parts ++ others) := by
  refine ⟨fun y read => ?_, ?_⟩
  · obtain ⟨b, got, read⟩ := Option.bind_eq_some_iff.mp read
    exact ⟨one.bounded b got, (rest b).bounded y read⟩
  · rw [Option.bind_eq_bind, Option.bind_eq_some_iff, legible_append]
    simp only [(rest _).exact]
    constructor
    · rintro ⟨b, got, ⟨same, rfl⟩, fits, legible⟩
      obtain ⟨-, own, fine⟩ := one.exact.mp got
      exact ⟨same, ⟨own, fits⟩, fine, legible⟩
    · rintro ⟨same, ⟨own, fits⟩, fine, legible⟩
      exact ⟨a, one.exact.mpr ⟨trivial, own, fine⟩, ⟨same, rfl⟩, fits, legible⟩

protected theorem map {result : Option α} {f : α → β} (one : Recovers same result a fits parts)
    (injective : ∀ b, f b = f a → b = a) : Recovers same (result.map f) (f a) fits parts := by
  refine ⟨fun y read => ?_, ?_⟩
  · obtain ⟨b, got, -⟩ := Option.map_eq_some_iff.mp read
    exact one.bounded b got
  · rw [← one.exact, Option.map_eq_some_iff]
    constructor
    · rintro ⟨b, got, equal⟩
      rwa [← injective b equal]
    · intro got
      exact ⟨a, got, rfl⟩

protected theorem congr {result : Option α} (one : Recovers same result a fits parts) (equal : fits ↔ more)
    (legible : Legible parts ↔ Legible others) : Recovers same result a more others :=
  ⟨fun y read => equal.mp (one.bounded y read), by rw [one.exact, equal, legible]⟩

protected theorem mapM {read : Json → Option α} {toJson : α → Json} {within : α → Prop}
    {inside : α → List Instruction} {items : List α}
    (each : ∀ i ∈ items, Recovers True (read (toJson i)) i (within i) (inside i)) :
    Recovers True ((items.map toJson).mapM read) items (∀ i ∈ items, within i) (items.flatMap inside) := by
  induction items with
  | nil => exact (Recovers.pure (by simp)).congr (by simp) Iff.rfl
  | cons first items ih =>
    rw [List.map_cons, List.mapM_cons]
    have rest := ih fun i member => each i (List.mem_cons_of_mem first member)
    refine ((each first List.mem_cons_self).bind fun one => rest.bind fun others => .pure ?_).congr ?_ ?_
    · simp
    · simp
    · simp

end Recovers

namespace Json

/-! ## Levels -/

theorem depthItems_le (items : List Json) (room : Nat) :
    depthItems items ≤ room ↔ ∀ i ∈ items, i.depth ≤ room := by
  induction items with
  | nil => simp [depthItems]
  | cons first items ih => rw [depthItems, Nat.max_le, ih, List.forall_mem_cons]

theorem depthFields_le (fields : List (Text × Json)) (room : Nat) :
    depthFields fields ≤ room ↔ ∀ f ∈ fields, f.2.depth ≤ room := by
  induction fields with
  | nil => simp [depthFields]
  | cons first fields ih => rw [depthFields, Nat.max_le, ih, List.forall_mem_cons]

theorem depth_array_le (items : List Json) (room : Nat) :
    (Json.array items).depth ≤ room + 1 ↔ ∀ i ∈ items, i.depth ≤ room := by
  rw [depth, Nat.add_le_add_iff_right, depthItems_le]

theorem depth_ofFields_le (fields : List (String × Json)) (room : Nat) :
    (ofFields fields).depth ≤ room + 1 ↔ ∀ f ∈ fields, f.2.depth ≤ room := by
  rw [ofFields, depth, Nat.add_le_add_iff_right, depthFields_le, List.forall_mem_map]

@[simp] theorem depth_variant (name : String) (content : Json) :
    (variant name content).depth = content.depth + 1 := by
  simp [variant, ofFields, depth, depthFields]

@[simp] theorem depth_ofString (value : String) : (ofString value).depth = 0 := rfl

/-! ## Structures, lists and alternatives -/

theorem field?_ofFields {fields : List (String × Json)} (distinct : (fields.map Prod.fst).Nodup)
    {f : String × Json} (member : f ∈ fields) :
    field? (fields.map fun f => (some f.1, f.2)) f.1 = some (some f.2) := by
  suffices only : (fields.map fun f => ((some f.1 : Text), f.2)).filter (·.1 == some f.1) =
      [(some f.1, f.2)] by
    rw [field?, only]
  induction fields with
  | nil => cases member
  | cons first fields ih =>
    obtain ⟨apart, distinct⟩ := List.nodup_cons.mp distinct
    rcases List.mem_cons.mp member with rfl | later
    · rw [List.map_cons, List.filter_cons_of_pos (by simp), List.cons.injEq]
      refine ⟨rfl, List.filter_eq_nil_iff.mpr fun other there same => apart ?_⟩
      obtain ⟨f', member, rfl⟩ := List.mem_map.mp there
      exact List.mem_map.mpr ⟨f', member, by simpa using same⟩
    · have other : first.1 ≠ f.1 := fun same => apart (same ▸ List.mem_map_of_mem later)
      rw [List.map_cons, List.filter_cons_of_neg (by simpa using other)]
      exact ih distinct later

theorem members?_ofFields {fields : List (String × Json)} (distinct : (fields.map Prod.fst).Nodup) :
    (ofFields fields).members? (fields.map Prod.fst) = some (fields.map fun f => some f.2) := by
  have each (f : String × Json) (member : f ∈ fields) := field?_ofFields distinct member
  have named : (fields.map fun f => ((some f.1 : Text), f.2)).all (·.1.isSome) = true := by simp
  rw [ofFields, members?, if_pos named]
  clear named distinct
  -- The names are looked up in all fields while the induction goes over some of them.
  generalize fields.map (fun f => ((some f.1 : Text), f.2)) = all at each
  induction fields with
  | nil => rfl
  | cons first fields ih =>
    rw [List.map_cons, List.mapM_cons, each first List.mem_cons_self,
      ih fun f member => each f (List.mem_cons_of_mem first member)]
    rfl

end Json

namespace Recovers

variable {α : Type} {same : Prop} {x : α} {parts : List Instruction}

theorem asStructure {fields : List (String × Json)} {names : List String}
    (listed : fields.map Prod.fst = names) (distinct : names.Nodup)
    {read : Nat → List (Option Json) → Option α} {room : Nat}
    (inside : ∀ less < room, Recovers same (read less (fields.map fun f => some f.2)) x
      (∀ f ∈ fields, f.2.depth ≤ less) parts) :
    Recovers same (Json.asStructure room names read (.ofFields fields)) x
      ((Json.ofFields fields).depth ≤ room) parts := by
  subst listed
  cases room with
  | zero => exact .missing rfl (by simp [Json.ofFields, Json.depth])
  | succ room =>
    rw [Json.asStructure, Json.members?_ofFields distinct, Option.bind_some, Json.depth_ofFields_le]
    exact inside room (Nat.lt_succ_self room)

theorem asList {read : Nat → Json → Option α} {toJson : α → Json} {inside : α → List Instruction}
    {items : List α} (room : Nat)
    (each : ∀ less < room, ∀ i ∈ items,
      Recovers True (read less (toJson i)) i ((toJson i).depth ≤ less) (inside i)) :
    Recovers True (Json.asList room read (.array (items.map toJson))) items
      ((Json.array (items.map toJson)).depth ≤ room) (items.flatMap inside) := by
  cases room with
  | zero => exact .missing rfl (by simp [Json.depth])
  | succ room =>
    rw [Json.asList, Json.depth_array_le]
    exact (Recovers.mapM (each room (Nat.lt_succ_self room))).congr (by simp) Iff.rfl

end Recovers

/-! ## Types, shapes and literals -/

theorem TypeRef.toJson_recovers (type : TypeRef) (room : Nat) :
    Recovers True (TypeRef.ofJson? room type.toJson) type (type.toJson.depth ≤ room) [] := by
  induction type generalizing room with
  | array element ih =>
    cases room with
    | zero => exact .missing rfl (by simp [TypeRef.toJson])
    | succ room =>
      have inside : TypeRef.ofJson? (room + 1) (TypeRef.array element).toJson =
          (TypeRef.ofJson? room element.toJson).map .array := by
        cases element <;> rfl
      rw [inside]
      exact ((ih room).map (by simp)).congr (by simp [TypeRef.toJson]) Iff.rfl
  | named name =>
    cases room with
    | zero => exact .missing rfl (by simp [TypeRef.toJson])
    | succ room => exact .found rfl (by simp [TypeRef.toJson]) legible_nil
  | _ => exact .found (by cases room <;> rfl) (Nat.zero_le room) legible_nil

theorem asString_recovers (value : String) : Recovers True (Json.ofString value).asString value True [] :=
  .found rfl trivial legible_nil

theorem Shape.toJson_recovers (shape : Shape) (room : Nat) :
    Recovers True (Shape.ofJson? room shape.toJson) shape (shape.toJson.depth ≤ room) [] := by
  refine Recovers.asStructure rfl (by simp) fun room _ => ?_
  have list := Recovers.asList room fun less _ type (_ : type ∈ shape.parameterTypes) =>
    type.toJson_recovers less
  refine ((shape.returnType.toJson_recovers room).bind fun _ => list.bind fun _ => .pure ?_).congr ?_ ?_
  · cases shape
    simp
  · simp
  · simp [Legible]

theorem Json.depth_ofDecimal (d : Binary64) : (Json.ofDecimal d).depth = 0 := by
  unfold Json.ofDecimal
  grind [Json.depth]

theorem Literal.toJson_recovers (literal : Literal) (room : Nat) :
    Recovers True (Literal.ofJson? room literal.toJson) literal (literal.toJson.depth ≤ room)
      [.literal literal] := by
  cases room with
  | zero => exact .missing (by cases literal <;> rfl) (by cases literal <;> simp [Literal.toJson])
  | succ room =>
    cases literal with
    | decimal value =>
      refine ⟨fun _ _ => by simp [Literal.toJson, Json.depth_ofDecimal], ?_⟩
      show (Json.ofDecimal value).asDecimal.map Literal.decimal = some (.decimal value) ↔ _
      simp [Legible, Binary64.Legible, Literal.toJson, Json.depth_ofDecimal]
    | int value =>
      refine .found ?_ (Nat.succ_le_succ (Nat.zero_le room)) (by simp [Legible])
      show (Json.Number.ofInt value.toInt).toInt64?.map Literal.int = some (.int value)
      rw [Json.Number.toInt64?_ofInt, Option.map_some]
    | char value =>
      refine .found ?_ (Nat.succ_le_succ (Nat.zero_le room)) (by simp [Legible])
      show (Json.ofString (String.ofList [value])).asChar.map Literal.char = some (.char value)
      simp [Json.asChar, Json.ofString, Json.asString]
    | _ => exact .found rfl (Nat.succ_le_succ (Nat.zero_le room)) (by simp [Legible])

theorem StandardStream.toJson_recovers (stream : StandardStream) (room : Nat) :
    Recovers True (StandardStream.ofJson? room stream.toJson) stream (stream.toJson.depth ≤ room) [] :=
  .found (by cases stream <;> rfl) (by cases stream <;> simp [StandardStream.toJson]) legible_nil

theorem InvokeKind.toJson_recovers (kind : InvokeKind) (room : Nat) :
    Recovers True (InvokeKind.ofJson? room kind.toJson) kind (kind.toJson.depth ≤ room) [] :=
  .found (by cases kind <;> rfl) (by cases kind <;> simp [InvokeKind.toJson]) legible_nil

/-! ## Instructions -/

namespace Instruction

def Recovered (i : Instruction) : Prop :=
  ∀ depth room, room < depth →
    Recovers True (ofJsonWithin? depth room i.toJson) i (i.toJson.depth ≤ room) i.parts

theorem toJsonAll_eq (instructions : List Instruction) : toJsonAll instructions = instructions.map toJson := by
  induction instructions with
  | nil => rfl
  | cons first rest ih => rw [toJsonAll, ih, List.map_cons]

theorem toJson_ne_null (i : Instruction) : i.toJson ≠ .null := by
  cases i <;> nofun

theorem asOptional_recovers {receiver : Option Instruction} {read : Json → Option Instruction} {room : Nat}
    (inside : ∀ i, receiver = some i → Recovers True (read i.toJson) i (i.toJson.depth ≤ room) i.parts) :
    Recovers True (Json.asOptional read (some (toJsonReceiver receiver))) receiver
      ((toJsonReceiver receiver).depth ≤ room) (partsReceiver receiver) := by
  cases receiver with
  | none => exact .found rfl (Nat.zero_le room) legible_nil
  | some i =>
    have read : Json.asOptional read (some i.toJson) = (read i.toJson).map some := by
      cases json : i.toJson with
      | null => exact absurd json i.toJson_ne_null
      | _ => rfl
    rw [toJsonReceiver, partsReceiver, read]
    exact (inside i rfl).map (by simp)

/-- Every instruction is an alternative with content, which takes one level. -/
theorem recovered_of_content {i : Instruction} {name : String} {content : Json}
    (json : i.toJson = .variant name content)
    (inside : ∀ depth room, room < depth →
      Recovers True (ofJsonWithin? (depth + 1) (room + 1) i.toJson) i (content.depth ≤ room) i.parts) :
    i.Recovered := by
  intro depth room below
  obtain ⟨depth, rfl⟩ : ∃ less, depth = less + 1 := ⟨depth - 1, by omega⟩
  cases room with
  | zero => exact .missing (by rw [json]; rfl) (by simp [json])
  | succ room => exact (inside depth room (by omega)).congr (by simp [json]) Iff.rfl

theorem literal_recovered (value : Literal) : (literal value).Recovered :=
  recovered_of_content rfl fun _ room _ => (value.toJson_recovers room).map (by simp)

theorem stream_recovered (target : StandardStream) : (stream target).Recovered :=
  recovered_of_content rfl fun _ room _ =>
    ((target.toJson_recovers room).map (by simp)).congr Iff.rfl (by simp [Legible, parts])

theorem access_recovered (name : String) (type : TypeRef) : (access name type).Recovered := by
  refine recovered_of_content rfl fun _ _ _ => Recovers.asStructure rfl (by simp) fun room _ => ?_
  refine ((asString_recovers name).bind fun _ => (type.toJson_recovers room).bind fun _ =>
    .pure ?_).congr ?_ ?_
  · simp
  · simp
  · simp [Legible, parts]

theorem declare_recovered (name : String) (type : TypeRef) {value : Instruction} (inside : value.Recovered) :
    (declare name type value).Recovered := by
  refine recovered_of_content rfl fun depth _ below => Recovers.asStructure rfl (by simp) fun room less => ?_
  refine ((asString_recovers name).bind fun _ => (type.toJson_recovers room).bind fun _ =>
    (inside depth room (by omega)).bind fun _ => .pure ?_).congr ?_ ?_
  · simp [and_assoc]
  · simp
  · simp [Legible, parts]

theorem invoke_recovered (kind : InvokeKind) {receiver : Option Instruction} (owner : TypeRef)
    (name : String) (shape : Shape) {arguments : List Instruction}
    (target : ∀ i, receiver = some i → i.Recovered) (each : ∀ i ∈ arguments, i.Recovered) :
    (invoke kind receiver owner name shape arguments).Recovered := by
  refine recovered_of_content rfl fun depth _ below => Recovers.asStructure rfl (by simp) fun room less => ?_
  have object := asOptional_recovers fun i same => target i same depth room (by omega)
  have list := Recovers.asList room fun less small i member => each i member depth less (by omega)
  rw [toJsonAll_eq]
  refine ((kind.toJson_recovers room).bind fun _ => object.bind fun _ =>
    (owner.toJson_recovers room).bind fun _ => (asString_recovers name).bind fun _ =>
    (shape.toJson_recovers room).bind fun _ => list.bind fun _ => .pure ?_).congr ?_ ?_
  · simp [and_assoc]
  · simp
  · simp [Legible, parts, partsAll_eq]

mutual

theorem recovered : ∀ i : Instruction, i.Recovered
  | .literal value => literal_recovered value
  | .declare name type value => declare_recovered name type value.recovered
  | .access name type => access_recovered name type
  | .invoke kind receiver owner name shape arguments =>
    invoke_recovered kind owner name shape (recoveredReceiver receiver) (recoveredAll arguments)
  | .stream target => stream_recovered target

theorem recoveredReceiver : ∀ (receiver : Option Instruction), ∀ i, receiver = some i → i.Recovered
  | none => nofun
  | some receiver => fun _ same => Option.some.inj same ▸ receiver.recovered

theorem recoveredAll : ∀ (instructions : List Instruction), ∀ i ∈ instructions, i.Recovered
  | [] => nofun
  | first :: rest => List.forall_mem_cons.mpr ⟨first.recovered, recoveredAll rest⟩

end

end Instruction

theorem Instruction.toJson_recovers (i : Instruction) (room : Nat) :
    Recovers True (Instruction.ofJson? room i.toJson) i (i.toJson.depth ≤ room) i.parts :=
  i.recovered (room + 1) room (Nat.lt_succ_self room)

/-! ## Declarations -/

theorem UnitKind.toJson_recovers (kind : UnitKind) (room : Nat) :
    Recovers True (UnitKind.ofJson? room kind.toJson) kind (kind.toJson.depth ≤ room) [] :=
  .found (by cases kind <;> rfl) (by cases kind <;> simp [UnitKind.toJson]) legible_nil

theorem Modifier.toJson_recovers (modifier : Modifier) (room : Nat) :
    Recovers True (Modifier.ofJson? room modifier.toJson) modifier (modifier.toJson.depth ≤ room) [] :=
  .found (by cases modifier <;> rfl) (by cases modifier <;> simp [Modifier.toJson]) legible_nil

theorem Parameter.toJson_recovers (p : Parameter) (room : Nat) :
    Recovers True (Parameter.ofJson? room p.toJson) p (p.toJson.depth ≤ room) p.parts := by
  refine Recovers.asStructure rfl (by simp) fun room _ => ?_
  have default := Instruction.asOptional_recovers fun i (_ : p.default = some i) => i.toJson_recovers room
  refine ((asString_recovers p.name).bind fun _ => (p.type.toJson_recovers room).bind fun _ =>
    default.bind fun _ => .pure ?_).congr ?_ ?_
  · cases p
    simp [and_assoc]
  · simp
  · simp [Parameter.parts]

theorem modifiers_recovers (modifiers : List Modifier) (room : Nat) :
    Recovers True (Json.asList room Modifier.ofJson? (.array (modifiers.map Modifier.toJson))) modifiers
      ((Json.array (modifiers.map Modifier.toJson)).depth ≤ room) [] := by
  have list := Recovers.asList room fun less _ m (_ : m ∈ modifiers) => m.toJson_recovers less
  exact list.congr Iff.rfl (by simp [Legible])

theorem parameters_recovers (parameters : List Parameter) (room : Nat) :
    Recovers True (Json.asList room Parameter.ofJson? (.array (parameters.map Parameter.toJson))) parameters
      ((Json.array (parameters.map Parameter.toJson)).depth ≤ room) (parameters.flatMap Parameter.parts) :=
  Recovers.asList room fun less _ p _ => p.toJson_recovers less

theorem body_recovers (body : List Instruction) (room : Nat) :
    Recovers True (Json.asList room Instruction.ofJson? (.array (Instruction.toJsonAll body))) body
      ((Json.array (Instruction.toJsonAll body)).depth ≤ room) (body.flatMap Instruction.parts) := by
  rw [Instruction.toJsonAll_eq]
  exact Recovers.asList room fun less _ i _ => i.toJson_recovers less

theorem MethodDeclaration.toJson_recovers (m : MethodDeclaration) (room : Nat) :
    Recovers True (MethodDeclaration.ofJson? room m.toJson) m (m.toJson.depth ≤ room) m.parts := by
  refine Recovers.asStructure rfl (by simp) fun room _ => ?_
  refine ((asString_recovers m.name).bind fun _ => (modifiers_recovers m.modifiers room).bind fun _ =>
    (parameters_recovers m.parameters room).bind fun _ => (m.returnType.toJson_recovers room).bind fun _ =>
    (body_recovers m.body room).bind fun _ => .pure ?_).congr ?_ ?_
  · cases m
    simp [and_assoc]
  · simp
  · simp [MethodDeclaration.parts]

theorem Constructor.toJson_recovers (c : Constructor) (room : Nat) :
    Recovers True (Constructor.ofJson? room c.toJson) c (c.toJson.depth ≤ room) c.parts := by
  refine Recovers.asStructure rfl (by simp) fun room _ => ?_
  refine ((modifiers_recovers c.modifiers room).bind fun _ =>
    (parameters_recovers c.parameters room).bind fun _ => (body_recovers c.body room).bind fun _ =>
    .pure ?_).congr ?_ ?_
  · cases c
    simp [and_assoc]
  · simp
  · simp [Constructor.parts]

theorem TypeDeclaration.toJson_recovers (d : TypeDeclaration) (room : Nat) :
    Recovers True (TypeDeclaration.ofJson? room d.toJson) d (d.toJson.depth ≤ room) d.parts := by
  refine Recovers.asStructure rfl (by simp) fun room _ => ?_
  have constructors := Recovers.asList room fun less _ c (_ : c ∈ d.constructors) => c.toJson_recovers less
  have methods := Recovers.asList room fun less _ m (_ : m ∈ d.methods) => m.toJson_recovers less
  refine ((asString_recovers d.qualifiedName).bind fun _ => (d.kind.toJson_recovers room).bind fun _ =>
    (modifiers_recovers d.modifiers room).bind fun _ => constructors.bind fun _ =>
    methods.bind fun _ => .pure ?_).congr ?_ ?_
  · cases d
    simp [and_assoc]
  · simp
  · simp [TypeDeclaration.parts]

end UnitCompiler
