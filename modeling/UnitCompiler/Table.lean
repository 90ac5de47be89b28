import UnitCompiler.Registry
import UnitCompiler.Schedule

/-!
# Tables with waiting lookups

A registry is served by one task that takes letters from a mailbox in the order they came. Whatever
is registered is also announced, in order, to those who listen. A lookup may come before the
declaration it needs:

1. it checks the registry; on a miss it starts to listen,
2. it checks again, so that nothing registered before it listened is missed,
3. it waits for a matching announcement or for the end, after which it checks once more.

A listener can fall behind the announcements by at most `capacity`; past that it loses the oldest
ones, notices, and goes back to 2. Posting a letter, serving one and hearing an announcement are
separate steps, so every interleaving of lookups and registrations is a sequence of steps.
-/

namespace UnitCompiler

inductive Event (α : Type) where
  | registered (owner : String) (declaration : α)
  | ended

/-- How far a lookup has come. A cursor counts the announcements it has passed. -/
inductive Phase (α : Type) where
  /-- About to post its first check. -/
  | starting
  | opening
  /-- About to ask for announcements. -/
  | missed
  | subscribing
  /-- About to check again. -/
  | listening (cursor : Nat)
  | confirming (cursor : Nat)
  /-- Nothing to do but to wait for the next announcement. -/
  | waiting (cursor : Nat)
  /-- Has heard of the end and is about to check for the last time. -/
  | dismissed (cursor : Nat)
  | closing (cursor : Nat)
  | settled (answer : Option α)
  /-- Found nobody to ask. -/
  | closed
  /-- Was given up when the table stopped. -/
  | cancelled

structure Lookup (α : Type) [Named α] where
  owner : String
  signature : Signature α
  phase : Phase α := .starting

inductive Letter (α : Type) [Named α] where
  | call (caller : Nat) (request : Request α)
  | check (lookup : Nat)
  | subscribe (lookup : Nat)

structure Table (α : Type) [Named α] where
  capacity : Nat := 256
  running : Bool := true
  registry : Registry α := {}
  mailbox : List (Letter α) := []
  /-- Everything announced so far. -/
  events : List (Event α) := []
  lookups : List (Lookup α) := []
  /-- Answers that their callers have not taken yet. -/
  replies : List (Nat × Reply α) := []

namespace Phase

variable {α : Type}

/-- Whether a lookup in this phase counts as a listener. -/
def listens : Phase α → Bool
  | .listening _ | .confirming _ | .waiting _ | .dismissed _ | .closing _ => true
  | _ => false

def isDone : Phase α → Bool
  | .settled _ | .closed | .cancelled => true
  | _ => false

/-- What a lookup makes of the answer to its check. -/
def hear (phase : Phase α) (reply : Reply α) : Phase α :=
  match phase, reply with
  | .opening, .found declaration => .settled (some declaration)
  | .opening, .missing true => .settled none
  | .opening, .missing false => .missed
  | .confirming _, .found declaration => .settled (some declaration)
  | .confirming _, .missing true => .settled none
  | .confirming cursor, .missing false => .waiting cursor
  | .closing _, .found declaration => .settled (some declaration)
  | .closing _, .missing _ => .settled none
  | phase, _ => phase

end Phase

namespace Table

variable {α : Type} [Named α]

/-- An empty table; at least one announcement is kept. -/
def withCapacity (capacity : Nat) : Table α := { capacity := max capacity 1 }

def setPhase (t : Table α) (index : Nat) (phase : Phase α) : Table α :=
  { t with lookups := t.lookups.modify index fun l => { l with phase } }

def send (t : Table α) (letter : Letter α) : Table α :=
  { t with mailbox := t.mailbox ++ [letter] }

/-- Puts a request to the registry on behalf of a caller. -/
def post (t : Table α) (caller : Nat) (request : Request α) : Table α :=
  if t.running then t.send (.call caller request)
  else { t with replies := t.replies ++ [(caller, .closed)] }

/-- Starts a lookup; it is known by its place among the lookups. -/
def seek (t : Table α) (owner : String) (signature : Signature α) : Table α :=
  let phase := if t.running then .starting else .closed
  { t with lookups := t.lookups ++ [⟨owner, signature, phase⟩] }

/-- What serving a request announces. -/
def announcements (request : Request α) (reply : Reply α) : List (Event α) :=
  match request, reply with
  | .register owner declaration, .registered => [.registered owner declaration]
  | .finish, .finished true => [.ended]
  | _, _ => []

/-- The registry's task takes one letter. -/
def serve? (t : Table α) : Option (Table α) :=
  match t.mailbox with
  | [] => none
  | .call caller request :: rest =>
    let (reply, registry) := t.registry.serve request
    some { t with
      mailbox := rest
      registry
      events := t.events ++ announcements request reply
      replies := t.replies ++ [(caller, reply)] }
  | .check index :: rest =>
    let t := { t with mailbox := rest }
    match t.lookups[index]? with
    | none => some t
    | some l =>
      let reply := (t.registry.serve (.check l.owner l.signature)).1
      some (t.setPhase index (l.phase.hear reply))
  | .subscribe index :: rest =>
    some ({ t with mailbox := rest }.setPhase index (.listening t.events.length))

/-- A waiting lookup takes the next announcement, or notices that it fell behind. -/
def hear? (t : Table α) (index : Nat) (l : Lookup α) (cursor : Nat) : Option (Table α) :=
  if cursor + t.capacity < t.events.length then
    some (t.setPhase index (.listening (t.events.length - t.capacity)))
  else
    match t.events[cursor]? with
    | none => none
    | some .ended => some (t.setPhase index (.dismissed (cursor + 1)))
    | some (.registered owner declaration) =>
      if owner = l.owner ∧ l.signature.accepts declaration then
        some (t.setPhase index (.settled (some declaration)))
      else some (t.setPhase index (.waiting (cursor + 1)))

/-- A lookup takes its next step, unless it waits for an answer or an announcement. -/
def advance? (t : Table α) (index : Nat) : Option (Table α) :=
  match t.lookups[index]? with
  | none => none
  | some l =>
    match l.phase with
    | .starting => some ((t.setPhase index .opening).send (.check index))
    | .missed => some ((t.setPhase index .subscribing).send (.subscribe index))
    | .listening cursor => some ((t.setPhase index (.confirming cursor)).send (.check index))
    | .waiting cursor => t.hear? index l cursor
    | .dismissed cursor => some ((t.setPhase index (.closing cursor)).send (.check index))
    | _ => none

/-- Stops the registry's task. Who waits for it is given up or turned away. -/
def stop (t : Table α) : Table α :=
  let turnedAway := t.mailbox.filterMap fun
    | .call caller _ => some (caller, Reply.closed)
    | _ => none
  { t with
    running := false
    mailbox := []
    lookups := t.lookups.map fun l => if l.phase.isDone then l else { l with phase := .cancelled }
    replies := t.replies ++ turnedAway }

/-- The answer a caller waits for, if it has come. -/
def takeReply? (t : Table α) (caller : Nat) : Option (Reply α × Table α) :=
  match t.replies.find? (·.1 == caller) with
  | some (_, reply) =>
    some (reply, { t with replies := t.replies.eraseP (·.1 == caller) })
  | none => none

/-- How many lookups listen for announcements. -/
def pending (t : Table α) : Nat :=
  t.lookups.countP (·.phase.listens)

/-! ## Steps -/

inductive Action (α : Type) [Named α] where
  | post (caller : Nat) (request : Request α)
  | seek (owner : String) (signature : Signature α)
  | serve
  | advance (index : Nat)

def perform (t : Table α) : Action α → Option (Table α)
  | .post caller request => some (t.post caller request)
  | .seek owner signature => some (t.seek owner signature)
  | .serve => t.serve?
  | .advance index => t.advance? index

/-- The next step that needs nothing from outside: serving comes first, then the lookups in order. -/
def next? (t : Table α) : Option (Table α) :=
  match t.serve? with
  | some t => some t
  | none => (List.range t.lookups.length).findSome? t.advance?

/-- Enough steps for everyone to come to rest. -/
def budget (t : Table α) : Nat :=
  8 * (t.mailbox.length + t.lookups.length + 1) * (t.mailbox.length + t.events.length + 4)

/-- Lets the table run until nobody can go on. -/
def settle (t : Table α) : Table α :=
  runSteps next? t.budget t

/-- Puts a request to a table at rest and takes its answer. -/
def ask (t : Table α) (caller : Nat) (request : Request α) : Reply α × Table α :=
  let t := (t.post caller request).settle
  (t.takeReply? caller).getD (.closed, t)

end Table

end UnitCompiler
