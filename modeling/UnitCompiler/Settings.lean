import UnitCompiler.Settings.Document

/-!
# Settings

How a compilation runs. Settings are read from a TOML document in which every key is optional and no
other key may stand.
-/

namespace UnitCompiler

/-- What to do when the input itself fails. -/
inductive InputPolicy where
  /-- Accept nothing more. -/
  | failFast
  | keepGoing
  deriving DecidableEq, Repr

structure Settings where
  /-- How many units are worked on at once, if that is limited. -/
  maxParallelUnits : Option Nat := none
  inputErrors : InputPolicy := .failFast
  /-- How many units may wait between two stages. -/
  channelCapacity : Nat := 64
  /-- How many announcements a waiting lookup may fall behind. -/
  resolutionBuffer : Nat := 256
  deriving DecidableEq, Repr

inductive SettingsError where
  /-- The text is no document, or has an unknown key or a value of the wrong kind. -/
  | malformed
  | belowOne (setting : String)
  /-- No compilation can be set up with as many. -/
  | excessive (setting : String)
  | unreadable (path reason : String)
  deriving DecidableEq, Repr

def SettingsError.message : SettingsError → String
  | .malformed => "Configuration error: malformed document"
  | .belowOne setting => s!"Configuration error: {setting} must be at least 1"
  | .excessive setting => s!"Configuration error: {setting} is too large"
  | .unreadable path reason => s!"Configuration error: cannot read {path}: {reason}"

def InputPolicy.ofName? : String → Option InputPolicy
  | "fail-fast" => some .failFast
  | "continue" => some .keepGoing
  | _ => none

namespace Settings

/-- The table that the keys of a line belong to. -/
inductive Section where
  | top
  | inputErrors
  /-- The table of one policy, which stays empty. -/
  | policy
  deriving DecidableEq, Repr

/-- A piece of the choice between policies. Instead of by its name a policy can be given by an empty
table of that name inside a table of its own. -/
inductive PolicyPart where
  | whole (policy : InputPolicy)
  /-- The header of the outer table. -/
  | outer
  /-- A key of the outer table. -/
  | inside (policy : InputPolicy)
  /-- The header of the inner table. -/
  | inner (policy : InputPolicy)
  deriving DecidableEq, Repr

/-- What has been read of a document. -/
structure Draft where
  current : Section := .top
  maxParallelUnits : Option Nat := none
  channelCapacity : Option Nat := none
  resolutionBuffer : Option Nat := none
  policy : List PolicyPart := []
  deriving Repr

/-- The policy named by a key whose value is empty. -/
def emptyPolicy? (name : String) : Value → Option InputPolicy
  | .emptyArray => InputPolicy.ofName? name
  | .emptyTable => InputPolicy.ofName? name
  | _ => none

def policyValue? : Value → Option InputPolicy
  | .text name => InputPolicy.ofName? name
  | .entry [name] value => emptyPolicy? name value
  | _ => none

/-- A count that was not given before. -/
def count? (old : Option Nat) : Value → Option (Option Nat)
  | .integer value => if old.isNone && 0 ≤ value then some (some value.toNat) else none
  | _ => none

def Draft.addPolicy (d : Draft) (part : PolicyPart) : Draft :=
  { d with policy := d.policy ++ [part] }

def Draft.add? (d : Draft) : Line → Option Draft
  | .header ["input_errors"] => some { d.addPolicy .outer with current := .inputErrors }
  | .header ["input_errors", name] =>
    (InputPolicy.ofName? name).map fun p => { d.addPolicy (.inner p) with current := .policy }
  | .header _ => none
  | .pair key value =>
    match d.current, key with
    | .top, ["max_parallel_units"] =>
      (count? d.maxParallelUnits value).map fun n => { d with maxParallelUnits := n }
    | .top, ["channel_capacity"] =>
      (count? d.channelCapacity value).map fun n => { d with channelCapacity := n }
    | .top, ["resolution_buffer"] =>
      (count? d.resolutionBuffer value).map fun n => { d with resolutionBuffer := n }
    | .top, ["input_errors"] => (policyValue? value).map fun p => d.addPolicy (.whole p)
    | .top, ["input_errors", name] => (emptyPolicy? name value).map fun p => d.addPolicy (.whole p)
    | .inputErrors, [name] => (emptyPolicy? name value).map fun p => d.addPolicy (.inside p)
    | _, _ => none

/-- The policy that the parts give together. -/
def policy? : List PolicyPart → Option InputPolicy
  | [] => some .failFast
  | [.whole policy] => some policy
  | [.outer, .inside policy] => some policy
  | [.outer, .inner policy] => some policy
  | [.inner policy] => some policy
  | [.inner policy, .outer] => some policy
  | _ => none

def Draft.finish? (d : Draft) : Option Settings := do
  let inputErrors ← policy? d.policy
  some
    { maxParallelUnits := d.maxParallelUnits
      inputErrors
      channelCapacity := d.channelCapacity.getD 64
      resolutionBuffer := d.resolutionBuffer.getD 256 }

def read? (text : String) : Option Settings := do
  let lines ← document? text
  let draft ← lines.foldlM Draft.add? {}
  draft.finish?

/-- The first setting that is too small, if there is one. -/
def validate (s : Settings) : Except SettingsError Unit :=
  if s.maxParallelUnits = some 0 then .error (.belowOne "max_parallel_units")
  else if s.channelCapacity = 0 then .error (.belowOne "channel_capacity")
  else if s.resolutionBuffer = 0 then .error (.belowOne "resolution_buffer")
  else .ok ()

/-- The most permits, and the most places in a channel. -/
def maxPermits : Nat := 0x1fffffffffffffff

/-- The most announcements that are kept for a lookup. -/
def maxAnnouncements : Nat := 0x200000000000000

/-- The first setting that no compilation can be set up with, if there is one. -/
def checkLimits (s : Settings) : Except SettingsError Unit :=
  if maxAnnouncements < s.resolutionBuffer then .error (.excessive "resolution_buffer")
  else if s.maxParallelUnits.any (maxPermits < ·) then .error (.excessive "max_parallel_units")
  else if maxPermits < s.channelCapacity then .error (.excessive "channel_capacity")
  else .ok ()

def parse (text : String) : Except SettingsError Settings :=
  match read? text with
  | none => .error .malformed
  | some s => s.validate.map fun _ => s

/-- Settings with what a caller asks for put in their place. -/
def adjust (s : Settings) (jobs : Option Nat) (policy : Option InputPolicy) : Settings :=
  { s with
    maxParallelUnits := jobs.elim s.maxParallelUnits some
    inputErrors := policy.getD s.inputErrors }

end Settings

end UnitCompiler
