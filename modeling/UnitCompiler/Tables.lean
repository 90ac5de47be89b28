import UnitCompiler.Emission
import UnitCompiler.Table

/-!
# The tables of a compilation

Units meet in two tables, one of types and one of methods. Every unit first registers its outline
there and then looks up the names it refers to. Both are done one request after another; between a
request and its answer the other units go on.
-/

namespace UnitCompiler

structure Tables where
  types : Table TypeDeclaration := {}
  methods : Table MethodDeclaration := {}

namespace Tables

def withCapacity (capacity : Nat) : Tables :=
  ⟨.withCapacity capacity, .withCapacity capacity⟩

/-- The steps of the tables and of the lookups in them. -/
inductive Action where
  | serveTypes
  | serveMethods
  | advanceType (lookup : Nat)
  | advanceMethod (lookup : Nat)
  deriving DecidableEq, Repr

def perform (t : Tables) : Action → Option Tables
  | .serveTypes => t.types.serve?.map fun types => { t with types }
  | .serveMethods => t.methods.serve?.map fun methods => { t with methods }
  | .advanceType lookup => (t.types.advance? lookup).map fun types => { t with types }
  | .advanceMethod lookup => (t.methods.advance? lookup).map fun methods => { t with methods }

def actions (t : Tables) : List Action :=
  .serveTypes :: .serveMethods ::
    ((List.range t.types.lookups.length).map .advanceType ++
      (List.range t.methods.lookups.length).map .advanceMethod)

/-- The first step of the tables that is enabled. -/
def next? (t : Tables) : Option Tables :=
  t.actions.findSome? t.perform

end Tables

/-! ## Registering -/

/-- An outline on its way into the tables: the type first, then the methods in order. -/
structure Registering where
  outline : Outline
  /-- How many registrations are confirmed. -/
  confirmed : Nat := 0
  /-- Whether the next one is on its way. -/
  posted : Bool := false

/-- What became of a task that needs the tables. -/
inductive Progress (σ ρ : Type) where
  | continuing (state : σ)
  | finished (result : ρ)
  | failed (error : DeclareError)

namespace Registering

/-- Where the answer to a request leaves the task. -/
def heed {α : Type} (r : Registering) : Reply α → Progress Registering Outline
  | .registered => .continuing { r with confirmed := r.confirmed + 1, posted := false }
  | .refused owner name => .failed (.registrationClosed owner name)
  | _ => .failed .tableClosed

/-- The next step on behalf of a caller. -/
def step? (r : Registering) (caller : Nat) (t : Tables) :
    Option (Progress Registering Outline × Tables) :=
  let owner := r.outline.owner
  match r.confirmed, r.posted with
  | 0, false =>
    let types := t.types.post caller (.register owner r.outline.type)
    some (.continuing { r with posted := true }, { t with types })
  | 0, true =>
    (t.types.takeReply? caller).map fun (reply, types) => (r.heed reply, { t with types })
  | n + 1, false =>
    match r.outline.methods[n]? with
    | none => some (.finished r.outline, t)
    | some declaration =>
      let methods := t.methods.post caller (.register owner declaration)
      some (.continuing { r with posted := true }, { t with methods })
  | _ + 1, true =>
    (t.methods.takeReply? caller).map fun (reply, methods) => (r.heed reply, { t with methods })

end Registering

/-! ## Resolving -/

/-- A unit that looks up the names it refers to. -/
structure Resolving where
  outline : Outline
  inquiry : Inquiry
  /-- The lookup of the question that is being asked. -/
  asked : Option Nat := none

namespace Resolving

def start (o : Outline) : Resolving := { outline := o, inquiry := .start o }

/-- Takes the result of a lookup once it has settled. -/
def heed? {α : Type} (r : Resolving) (answer : Option α → Inquiry) :
    Phase α → Option (Progress Resolving References)
  | .settled found => some (.continuing { r with inquiry := answer found, asked := none })
  | .closed => some (.failed .tableClosed)
  | .cancelled => some (.failed .tableClosed)
  | _ => none

def step? (r : Resolving) (t : Tables) : Option (Progress Resolving References × Tables) :=
  match r.inquiry.question?, r.asked with
  | none, _ => some (.finished r.inquiry.known, t)
  | some (.type candidate), none =>
    let asked := some t.types.lookups.length
    let types := t.types.seek candidate (.ofType candidate)
    some (.continuing { r with asked }, { t with types })
  | some (.method call), none =>
    let asked := some t.methods.lookups.length
    let methods := t.methods.seek r.outline.owner (.ofMethod call.name (.accepting call.arity))
    some (.continuing { r with asked }, { t with methods })
  | some (.type _), some lookup =>
    match t.types.lookups[lookup]? with
    | none => none
    | some l => (r.heed? r.inquiry.answerType l.phase).map fun progress => (progress, t)
  | some (.method _), some lookup =>
    match t.methods.lookups[lookup]? with
    | none => none
    | some l => (r.heed? r.inquiry.answerMethod l.phase).map fun progress => (progress, t)

end Resolving

end UnitCompiler
