import UnitCompiler.Inlining
import UnitCompiler.Proofs.InstructionParts

/-! What instructions do. They are evaluated from left to right: a receiver before the arguments, a
value before it is declared. What an invocation does is left open, it may use and change a state that all
invocations share. Substituted values are seen to do what the variables did that they replace. -/

namespace UnitCompiler

variable {V σ : Type}

structure Invocation (V : Type) where
  kind : InvokeKind
  receiver : Option V
  owner : TypeRef
  name : String
  shape : Shape
  arguments : List V
  deriving DecidableEq

/-- What the instructions other than variables are worth, and what invocations do. -/
structure Interpretation (V σ : Type) where
  literal : Literal → V
  stream : StandardStream → V
  /-- What a declaration itself is worth. -/
  nothing : V
  invoke : Invocation V → σ → V × σ

structure Machine (V σ : Type) where
  environment : String → V
  shared : σ
  /-- The invocations so far, each with its result. -/
  trace : List (Invocation V × V) := []

namespace Machine

def assign (s : Machine V σ) (name : String) (value : V) : Machine V σ :=
  { s with environment := fun other => if other = name then value else s.environment other }

@[simp] theorem assign_shared (s : Machine V σ) (name : String) (value : V) :
    (s.assign name value).shared = s.shared := rfl

@[simp] theorem assign_trace (s : Machine V σ) (name : String) (value : V) :
    (s.assign name value).trace = s.trace := rfl

@[simp] theorem assign_same (s : Machine V σ) (name : String) (value : V) :
    (s.assign name value).environment name = value := by
  simp [assign]

@[simp] theorem assign_other (s : Machine V σ) {name other : String} (value : V) (apart : other ≠ name) :
    (s.assign name value).environment other = s.environment other := by
  simp [assign, apart]

def invoke (m : Interpretation V σ) (call : Invocation V) (s : Machine V σ) : V × Machine V σ :=
  let (result, shared) := m.invoke call s.shared
  (result, { s with shared, trace := s.trace ++ [(call, result)] })

end Machine

namespace Interpretation

mutual

def eval (m : Interpretation V σ) : Instruction → Machine V σ → V × Machine V σ
  | .literal value, s => (m.literal value, s)
  | .declare name _ value, s =>
    let (result, s) := eval m value s
    (m.nothing, s.assign name result)
  | .access name _, s => (s.environment name, s)
  | .invoke kind receiver owner name shape arguments, s =>
    let (receiver, s) := evalReceiver m receiver s
    let (arguments, s) := evalAll m arguments s
    s.invoke m ⟨kind, receiver, owner, name, shape, arguments⟩
  | .stream target, s => (m.stream target, s)

def evalReceiver (m : Interpretation V σ) :
    Option Instruction → Machine V σ → Option V × Machine V σ
  | none, s => (none, s)
  | some receiver, s =>
    let (result, s) := eval m receiver s
    (some result, s)

def evalAll (m : Interpretation V σ) : List Instruction → Machine V σ → List V × Machine V σ
  | [], s => ([], s)
  | instruction :: rest, s =>
    let (first, s) := eval m instruction s
    let (others, s) := evalAll m rest s
    (first :: others, s)

end

variable (m : Interpretation V σ)

theorem eval_declare (name : String) (type : TypeRef) (value : Instruction) (s : Machine V σ) :
    m.eval (.declare name type value) s =
      (m.nothing, (m.eval value s).2.assign name (m.eval value s).1) := rfl

theorem eval_invoke (kind : InvokeKind) (receiver : Option Instruction) (owner : TypeRef)
    (name : String) (shape : Shape) (arguments : List Instruction) (s : Machine V σ) :
    m.eval (.invoke kind receiver owner name shape arguments) s =
      let first := m.evalReceiver receiver s
      let later := m.evalAll arguments first.2
      later.2.invoke m ⟨kind, first.1, owner, name, shape, later.1⟩ := rfl

theorem evalReceiver_some (receiver : Instruction) (s : Machine V σ) :
    m.evalReceiver (some receiver) s = (some (m.eval receiver s).1, (m.eval receiver s).2) := rfl

theorem evalAll_cons (i : Instruction) (code : List Instruction) (s : Machine V σ) :
    m.evalAll (i :: code) s =
      let first := m.eval i s
      let later := m.evalAll code first.2
      (first.1 :: later.1, later.2) := rfl

def run (code : List Instruction) (s : Machine V σ) : Machine V σ :=
  (m.evalAll code s).2

@[simp] theorem run_nil (s : Machine V σ) : m.run [] s = s := rfl

@[simp] theorem run_cons (i : Instruction) (code : List Instruction) (s : Machine V σ) :
    m.run (i :: code) s = m.run code (m.eval i s).2 := rfl

theorem run_append (code more : List Instruction) (s : Machine V σ) :
    m.run (code ++ more) s = m.run more (m.run code s) := by
  induction code generalizing s with
  | nil => rfl
  | cons i code ih => rw [List.cons_append, run_cons, run_cons, ih]

end Interpretation

/-! ## Values that do nothing -/

namespace Instruction

/-- Nothing inside an instruction invokes or declares anything. -/
def Inert (i : Instruction) : Prop :=
  ∀ part ∈ i.parts, part.invoked = none ∧ ∀ name type value, part ≠ .declare name type value

/-- A variable is declared somewhere inside an instruction. -/
def Declares (i : Instruction) (name : String) : Prop :=
  ∃ type value, .declare name type value ∈ i.parts

theorem Declares.declare {name other : String} {type : TypeRef} {value : Instruction}
    (declares : (Instruction.declare name type value).Declares other) :
    other = name ∨ value.Declares other := by
  obtain ⟨type', value', inside⟩ := declares
  rcases List.mem_cons.mp inside with same | inside
  · cases same
    exact .inl rfl
  · exact .inr ⟨type', value', inside⟩

variable {m : Interpretation V σ} {s s' : Machine V σ} {i : Instruction}

/-- What does nothing leaves everything as it is, and its value depends only on the variables it reads. -/
theorem Inert.eval (inert : i.Inert) (s : Machine V σ) : (m.eval i s).2 = s := by
  cases i with
  | literal | access | stream => rfl
  | declare name type value => exact absurd rfl ((inert _ List.mem_cons_self).2 name type value)
  | invoke => exact absurd (inert _ List.mem_cons_self).1 (by simp [invoked])

theorem Inert.eval_congr (inert : i.Inert)
    (agree : ∀ name, i.reads name ≠ 0 → s.environment name = s'.environment name) :
    (m.eval i s).1 = (m.eval i s').1 := by
  cases i with
  | literal | stream => rfl
  | access name type => exact agree name (by simp [reads])
  | declare name type value => exact absurd rfl ((inert _ List.mem_cons_self).2 name type value)
  | invoke => exact absurd (inert _ List.mem_cons_self).1 (by simp [invoked])

end Instruction

/-! ## Values in place of variables -/

namespace Instruction

variable {m : Interpretation V σ} {values : Substitution} {s s' : Machine V σ}

/-- The first machine has a value in each replaced variable where the second still has to evaluate it. -/
structure Mirrors (m : Interpretation V σ) (values : Substitution) (s s' : Machine V σ) : Prop where
  trace : s'.trace = s.trace
  shared : s'.shared = s.shared
  replaced : ∀ name i, values.lookup name = some i → s.environment name = (m.eval i s').1
  others : ∀ name, values.lookup name = none → s.environment name = s'.environment name

/-- A variable that is not replaced and that no value reads. -/
def Clear (values : Substitution) (name : String) : Prop :=
  values.lookup name = none ∧ ∀ other i, values.lookup other = some i → i.reads name = 0

def Quiet (values : Substitution) : Prop :=
  ∀ name i, values.lookup name = some i → i.Inert

theorem Mirrors.assign (mirrors : Mirrors m values s s') (quiet : Quiet values) {name : String}
    (clear : Clear values name) (value : V) :
    Mirrors m values (s.assign name value) (s'.assign name value) where
  trace := mirrors.trace
  shared := mirrors.shared
  replaced other i found := by
    have apart : other ≠ name := by
      rintro rfl
      rw [clear.1] at found
      contradiction
    rw [Machine.assign_other s value apart, mirrors.replaced other i found]
    apply (quiet other i found).eval_congr
    intro variableName read
    have unread := clear.2 other i found
    have apart : variableName ≠ name := by
      rintro rfl
      exact read unread
    rw [Machine.assign_other s' value apart]
  others other absent := by
    by_cases same : other = name
    · rw [same, Machine.assign_same, Machine.assign_same]
    · rw [Machine.assign_other s value same, Machine.assign_other s' value same,
        mirrors.others other absent]

theorem Mirrors.invoke (mirrors : Mirrors m values s s') (quiet : Quiet values) (call : Invocation V) :
    (s'.invoke m call).1 = (s.invoke m call).1 ∧
      Mirrors m values (s.invoke m call).2 (s'.invoke m call).2 := by
  simp only [Machine.invoke, mirrors.shared, mirrors.trace, true_and]
  refine ⟨rfl, rfl, fun name i found => ?_, mirrors.others⟩
  rw [mirrors.replaced name i found]
  exact (quiet name i found).eval_congr fun _ _ => rfl

mutual

/-- With values in the place of variables an instruction has the same result and does the same. -/
theorem Mirrors.eval (quiet : Quiet values) : (i : Instruction) → ∀ {s s' : Machine V σ},
    Mirrors m values s s' → (∀ name, i.Declares name → Clear values name) →
    (m.eval (i.substitute values) s').1 = (m.eval i s).1 ∧
      Mirrors m values (m.eval i s).2 (m.eval (i.substitute values) s').2
  | .literal _, _, _, mirrors, _ => ⟨rfl, mirrors⟩
  | .stream _, _, _, mirrors, _ => ⟨rfl, mirrors⟩
  | .access name type, s, s', mirrors, _ => by
    rw [substitute]
    cases found : values.lookup name with
    | none => exact ⟨(mirrors.others name found).symm, mirrors⟩
    | some i =>
      rw [Option.getD_some, (quiet name i found).eval]
      exact ⟨(mirrors.replaced name i found).symm, mirrors⟩
  | .declare name type value, s, s', mirrors, clear => by
    have own : Clear values name := clear name ⟨type, value, List.mem_cons_self⟩
    have inner (other : String) (declares : value.Declares other) : Clear values other := by
      obtain ⟨type', value', inside⟩ := declares
      exact clear other ⟨type', value', List.mem_cons_of_mem _ inside⟩
    obtain ⟨same, mirrors⟩ := Mirrors.eval quiet value mirrors inner
    rw [substitute, m.eval_declare, m.eval_declare, same]
    exact ⟨rfl, mirrors.assign quiet own _⟩
  | .invoke kind receiver owner name shape arguments, s, s', mirrors, clear => by
    have first (other : String) (type : TypeRef) (value : Instruction)
        (inside : .declare other type value ∈ partsReceiver receiver) : Clear values other :=
      clear other ⟨type, value, List.mem_cons_of_mem _ (List.mem_append_left _ inside)⟩
    have later (other : String) (type : TypeRef) (value : Instruction)
        (inside : .declare other type value ∈ partsAll arguments) : Clear values other :=
      clear other ⟨type, value, List.mem_cons_of_mem _ (List.mem_append_right _ inside)⟩
    obtain ⟨sameReceiver, mirrors⟩ := Mirrors.evalReceiver quiet receiver mirrors first
    obtain ⟨sameArguments, mirrors⟩ := Mirrors.evalAll quiet arguments mirrors later
    rw [substitute, m.eval_invoke, m.eval_invoke]
    dsimp only
    rw [sameReceiver, sameArguments]
    exact mirrors.invoke quiet _

theorem Mirrors.evalReceiver (quiet : Quiet values) : (receiver : Option Instruction) →
    ∀ {s s' : Machine V σ}, Mirrors m values s s' →
    (∀ name type value, .declare name type value ∈ partsReceiver receiver → Clear values name) →
    (m.evalReceiver (substituteReceiver values receiver) s').1 = (m.evalReceiver receiver s).1 ∧
      Mirrors m values (m.evalReceiver receiver s).2
        (m.evalReceiver (substituteReceiver values receiver) s').2
  | none, _, _, mirrors, _ => ⟨rfl, mirrors⟩
  | some receiver, s, s', mirrors, clear => by
    obtain ⟨same, mirrors⟩ := Mirrors.eval quiet receiver mirrors
      fun name ⟨type, value, inside⟩ => clear name type value inside
    rw [substituteReceiver, m.evalReceiver_some, m.evalReceiver_some, same]
    exact ⟨rfl, mirrors⟩

theorem Mirrors.evalAll (quiet : Quiet values) : (code : List Instruction) →
    ∀ {s s' : Machine V σ}, Mirrors m values s s' →
    (∀ name type value, .declare name type value ∈ partsAll code → Clear values name) →
    (m.evalAll (substituteAll values code) s').1 = (m.evalAll code s).1 ∧
      Mirrors m values (m.evalAll code s).2 (m.evalAll (substituteAll values code) s').2
  | [], _, _, mirrors, _ => ⟨rfl, mirrors⟩
  | i :: rest, s, s', mirrors, clear => by
    have first (name : String) (declares : i.Declares name) : Clear values name := by
      obtain ⟨type, value, inside⟩ := declares
      exact clear name type value (List.mem_append_left _ inside)
    have later (name : String) (type : TypeRef) (value : Instruction)
        (inside : .declare name type value ∈ partsAll rest) : Clear values name :=
      clear name type value (List.mem_append_right _ inside)
    obtain ⟨same, mirrors⟩ := Mirrors.eval quiet i mirrors first
    obtain ⟨sameRest, mirrors⟩ := Mirrors.evalAll quiet rest mirrors later
    rw [substituteAll, m.evalAll_cons, m.evalAll_cons]
    dsimp only
    rw [same, sameRest]
    exact ⟨rfl, mirrors⟩

end

end Instruction

end UnitCompiler
