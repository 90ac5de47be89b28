import UnitCompiler.Tables

/-!
# Sessions

In a session units are declared and resolved one by one, in any order. Resolving goes on in the
background until every name the unit refers to is declared, or until the session's resolution ends.
-/

namespace UnitCompiler

/-- A resolve that was started. -/
inductive Resolve where
  | running (state : Resolving)
  | done (result : Except DeclareError DeclaredUnit)

/-- How much a resolve has left to do. -/
def Resolve.size : Resolve → Nat
  | .running state => state.inquiry.size + 1
  | .done _ => 0

structure Session where
  grammar : Grammar
  inliner : Inliner
  tables : Tables := {}
  declaring : Option Registering := none
  /-- What became of the last unit to be declared. -/
  declared : Except DeclareError Outline := .error .tableClosed
  /-- The resolves in the order in which they were started. -/
  resolves : List Resolve := []
  /-- The number of the next instance of an intrinsic. -/
  instances : Nat := 1
  diagnostics : List Diagnostic := []

namespace Session

/-- Declaring uses the tables under this number. -/
def declarer : Nat := 0

/-- The one who ends the resolution. -/
def ender : Nat := 1

inductive Action where
  | tables (action : Tables.Action)
  | declare
  | resolve (index : Nat)

def setResolve (s : Session) (index : Nat) (resolve : Resolve) : Session :=
  { s with resolves := s.resolves.set index resolve }

/-- The names of a unit are known: its declaration follows. -/
def finishResolve (s : Session) (index : Nat) (o : Outline) (references : References) : Session :=
  let (unit, diagnostics, instances) := o.emit s.inliner s.instances references
  { s with instances, diagnostics := s.diagnostics ++ diagnostics }.setResolve index (.done (.ok unit))

def perform (s : Session) : Action → Option Session
  | .tables action => (s.tables.perform action).map fun tables => { s with tables }
  | .declare =>
    match s.declaring with
    | none => none
    | some registering =>
      (registering.step? declarer s.tables).map fun
        | (.continuing next, tables) => { s with tables, declaring := some next }
        | (.finished o, tables) => { s with tables, declaring := none, declared := .ok o }
        | (.failed e, tables) => { s with tables, declaring := none, declared := .error e }
  | .resolve index =>
    match s.resolves[index]? with
    | some (.running resolving) =>
      (resolving.step? s.tables).map fun
        | (.continuing next, tables) => { s with tables }.setResolve index (.running next)
        | (.finished references, tables) =>
          { s with tables }.finishResolve index resolving.outline references
        | (.failed e, tables) => { s with tables }.setResolve index (.done (.error e))
    | _ => none

def actions (s : Session) : List Action :=
  s.tables.actions.map .tables ++ .declare :: (List.range s.resolves.length).map .resolve

def next? (s : Session) : Option Session :=
  s.actions.findSome? s.perform

/-- Enough steps for the session to come to rest. -/
def budget (s : Session) : Nat :=
  let registrations := s.declaring.elim 0 fun r => r.outline.methods.length + 2
  let questions := s.resolves.foldl (fun n resolve => n + resolve.size) 0
  let lookups := s.tables.types.lookups.length + s.tables.methods.lookups.length + questions
  let events := s.tables.types.events.length + s.tables.methods.events.length + registrations
  let letters := s.tables.types.mailbox.length + s.tables.methods.mailbox.length
  8 * (lookups + registrations + letters + 1) * (events + letters + 8)

/-- Lets everything go on until nothing can. -/
def settle (s : Session) : Session :=
  runSteps next? s.budget s

/-- Declares a unit; the answer is its outline. -/
def declare (s : Session) (unit : SourceUnit) : Except (Failure DeclareError) Outline × Session :=
  match Outline.read s.grammar unit with
  | .error e => (.error e, s)
  | .ok outline =>
    let s := { s with declaring := some { outline } }.settle
    (s.declared.mapError .error, s)

/-- Starts to resolve a declared unit; the resolve is known by its place among all of them. -/
def resolve (s : Session) (o : Outline) : Session :=
  { s with resolves := s.resolves ++ [Resolve.running (.start o)] }.settle

/-- Ends the resolution in both tables. -/
def finish (s : Session) : Session :=
  let types := s.tables.types.post ender .finish
  let s := { s with tables := { s.tables with types } }.settle
  let methods := s.tables.methods.post ender .finish
  { s with tables := { s.tables with methods } }.settle

/-- How many lookups wait, in the table of types and in that of methods. -/
def pending (s : Session) : Nat × Nat :=
  (s.tables.types.pending, s.tables.methods.pending)

end Session

end UnitCompiler
