import UnitCompiler.Diagnostic

/-!
# Reports

Everything that goes wrong during a compilation is a record. Records are printed one by one and
counted in a summary.
-/

namespace UnitCompiler

inductive Record where
  /-- A unit, or the input itself, failed before any code was generated. The cause is a chain of
  messages, the outermost first. -/
  | parsing (unit : Option String) (cause : List String)
  /-- No code could be generated for a unit. -/
  | compilation (unit : Option String) (cause : List String)
  | diagnostic (diagnostic : Diagnostic)
  deriving DecidableEq, Repr

namespace Record

def exception (activity : String) (unit : Option String) (cause : List String) : String :=
  s!"An exception occurred while {activity} Firefly Source Units" ++
    (unit.elim "" fun path => s!" ({path})") ++
    "\n  Cause: " ++ ": ".intercalate cause

def describe : Record → String
  | .parsing unit cause => exception "parsing" unit cause
  | .compilation unit cause => exception "compiling" unit cause
  | .diagnostic d =>
    s!"An error occurred while compiling Firefly Source Unit: {d.location}" ++
      s!"\n  Message: {d.message}." ++
      (if d.details.isEmpty then "" else "\n  Additional details: " ++ "\n  ".intercalate d.details)

end Record

/-- What was reported during one compilation. -/
structure Summary where
  parsingExceptions : Nat := 0
  compilationExceptions : Nat := 0
  diagnostics : List Diagnostic := []
  deriving DecidableEq, Repr

namespace Summary

def total (s : Summary) : Nat :=
  s.parsingExceptions + s.compilationExceptions + s.diagnostics.length

def isClean (s : Summary) : Bool := s.total == 0

def add (s : Summary) : Record → Summary
  | .parsing _ _ => { s with parsingExceptions := s.parsingExceptions + 1 }
  | .compilation _ _ => { s with compilationExceptions := s.compilationExceptions + 1 }
  | .diagnostic d => { s with diagnostics := s.diagnostics ++ [d] }

def ofRecords (records : List Record) : Summary :=
  records.foldl add {}

/-- The diagnostics of each unit, by its path. -/
def byUnit (s : Summary) : List (String × List Diagnostic) :=
  (s.diagnostics.map Diagnostic.path).eraseDups.map fun path =>
    (path, s.diagnostics.filter (·.path == path))

end Summary

end UnitCompiler
