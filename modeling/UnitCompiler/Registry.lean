import UnitCompiler.Signature

/-!
# Registries

A registry keeps declarations by owner and name, in the order of their registration. Once it has
ended it takes no further ones, and only then does it show its whole content.
-/

namespace UnitCompiler

/-- The declarations of one owner by name. -/
abbrev Buckets (α : Type) := List (String × List α)

/-- Changes the value at a key, which is added at the end if it is missing. -/
def alter {β : Type} (key : String) (change : Option β → β) :
    List (String × β) → List (String × β)
  | [] => [(key, change none)]
  | (k, v) :: rest =>
    if k = key then (k, change (some v)) :: rest else (k, v) :: alter key change rest

structure Registry (α : Type) where
  owners : List (String × Buckets α) := []
  ended : Bool := false

/-- What can be asked of a registry. -/
inductive Request (α : Type) [Named α] where
  | register (owner : String) (declaration : α)
  | check (owner : String) (signature : Signature α)
  | finish
  | containsOwner (owner : String)
  | named (owner name : String)
  | snapshot

inductive Reply (α : Type) where
  | registered
  | refused (owner name : String)
  | found (declaration : α)
  | missing (ended : Bool)
  /-- Whether this request was the one that ended the registry. -/
  | finished (first : Bool)
  | contains (present : Bool)
  | declarations (list : List α)
  | contents (owners : List (String × Buckets α))
  /-- Nobody is there to answer. -/
  | closed

/-- Why a declaration was refused. -/
def Reply.refusal (owner name : String) : String :=
  s!"Resolution has ended, '{name}' cannot be registered under '{owner}'"

/-- What a caller is told when nobody is there. -/
def Reply.absence : String := "Resolution table is no longer running"

namespace Registry

variable {α : Type}

def bucket (r : Registry α) (owner name : String) : List α :=
  (((r.owners.lookup owner).getD []).lookup name).getD []

def containsOwner (r : Registry α) (owner : String) : Bool :=
  (r.owners.lookup owner).isSome

variable [Named α]

/-- The first declaration of an owner that a signature accepts. -/
def find (r : Registry α) (owner : String) (signature : Signature α) : Option α :=
  (r.bucket owner signature.name).find? signature.accepts

def add (r : Registry α) (owner : String) (declaration : α) : Registry α :=
  let push := fun (list : Option (List α)) => list.getD [] ++ [declaration]
  let insert := fun (buckets : Option (Buckets α)) =>
    alter (Named.name declaration) push (buckets.getD [])
  { r with owners := alter owner insert r.owners }

def serve (r : Registry α) : Request α → Reply α × Registry α
  | .register owner declaration =>
    if r.ended then (.refused owner (Named.name declaration), r)
    else (.registered, r.add owner declaration)
  | .check owner signature =>
    match r.find owner signature with
    | some declaration => (.found declaration, r)
    | none => (.missing r.ended, r)
  | .finish => (.finished (!r.ended), { r with ended := true })
  | .containsOwner owner => (.contains (r.containsOwner owner), r)
  | .named owner name => (.declarations (r.bucket owner name), r)
  | .snapshot => (.contents (if r.ended then r.owners else []), r)

end Registry

end UnitCompiler
