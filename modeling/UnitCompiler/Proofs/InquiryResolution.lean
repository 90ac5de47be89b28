import UnitCompiler.Proofs.TableLookup
import UnitCompiler.Tables

/-! How a unit finds what its names stand for. An inquiry asks one question after another; if each
answer is the one that some assignment of declarations to names gives, the references at the end are
those of the assignment. -/

namespace UnitCompiler

/-- What every name stands for: types by their qualified name, functions by the way they are called. -/
structure Meaning where
  type : String → Option TypeDeclaration
  method : Call → Option MethodDeclaration

/-- The references to types that an assignment gives: the first candidate that is declared counts. -/
def Meaning.types (m : Meaning) (asked : List (String × List String)) :
    List (String × Option TypeRef) :=
  asked.map fun (name, candidates) =>
    (name, (candidates.findSome? m.type).map fun d => .named d.qualifiedName)

def Meaning.methods (m : Meaning) (calls : List Call) : List (Call × Option MethodDeclaration) :=
  calls.map fun call => (call, m.method call)

namespace Inquiry

def complete (i : Inquiry) (m : Meaning) : References where
  types := i.known.types ++ m.types i.types
  methods := i.known.methods ++ m.methods i.calls

def Normal (i : Inquiry) : Prop :=
  ∀ name rest, i.types ≠ (name, []) :: rest

theorem skip_eq (known : References) (types : List (String × List String)) (m : Meaning) :
    (skip known types).1.types ++ m.types (skip known types).2 = known.types ++ m.types types ∧
      (skip known types).1.methods = known.methods ∧
      ∀ name rest, (skip known types).2 ≠ (name, []) :: rest := by
  fun_induction skip known types with
  | case1 known name rest ih =>
    refine ⟨ih.1.trans ?_, ih.2.1, ih.2.2⟩
    simp [Meaning.types]
  | case2 known types other =>
    exact ⟨rfl, rfl, fun name rest first => other name rest first⟩

theorem normalize_complete (i : Inquiry) (m : Meaning) : i.normalize.complete m = i.complete m := by
  obtain ⟨types, methods, -⟩ := skip_eq i.known i.types m
  simp only [complete, normalize, References.mk.injEq]
  exact ⟨types, by rw [methods]⟩

theorem normalize_normal (i : Inquiry) : i.normalize.Normal :=
  (skip_eq i.known i.types ⟨fun _ => none, fun _ => none⟩).2.2

/-- The answer about a candidate leaves the final references as they were to be. -/
theorem answerType_complete (i : Inquiry) (m : Meaning) (candidate : String)
    (question : i.question? = some (.type candidate)) :
    (i.answerType (m.type candidate)).complete m = i.complete m ∧
      (i.answerType (m.type candidate)).Normal := by
  unfold question? at question
  split at question
  · next name first candidates rest types =>
    cases question
    unfold answerType
    rw [types]
    dsimp only
    cases found : m.type candidate with
    | some d =>
      refine ⟨?_, normalize_normal _⟩
      rw [normalize_complete]
      simp [complete, Meaning.types, types, found]
    | none =>
      refine ⟨?_, normalize_normal _⟩
      rw [normalize_complete]
      simp [complete, Meaning.types, types, found]
  · split at question <;> simp at question

theorem answerMethod_complete (i : Inquiry) (m : Meaning) (call : Call) (normal : i.Normal)
    (question : i.question? = some (.method call)) :
    (i.answerMethod (m.method call)).complete m = i.complete m ∧
      (i.answerMethod (m.method call)).Normal := by
  unfold question? at question
  split at question
  · simp at question
  · split at question
    · next next rest calls =>
      cases question
      unfold answerMethod
      rw [calls]
      refine ⟨?_, normal⟩
      simp [complete, Meaning.methods, calls]
    · simp at question

theorem types_of_question {i : Inquiry} {candidate : String}
    (question : i.question? = some (.type candidate)) :
    ∃ name others rest, i.types = (name, candidate :: others) :: rest := by
  unfold question? at question
  split at question
  · next name first others rest types =>
    cases question
    exact ⟨name, others, rest, types⟩
  · split at question <;> simp at question

theorem calls_of_question {i : Inquiry} {call : Call} (question : i.question? = some (.method call)) :
    ∃ rest, i.calls = call :: rest := by
  unfold question? at question
  split at question
  · simp at question
  · split at question
    · next first rest calls =>
      cases question
      exact ⟨rest, calls⟩
    · simp at question

/-- When no question is left, there is nothing to look up. -/
theorem left_of_question (i : Inquiry) (normal : i.Normal) (question : i.question? = none) :
    i.types = [] ∧ i.calls = [] := by
  unfold question? at question
  split at question
  · simp at question
  · next noCandidate =>
    split at question
    · simp at question
    · next calls =>
      refine ⟨?_, calls⟩
      match whole : i.types with
      | [] => rfl
      | (name, []) :: rest => exact absurd whole (normal name rest)
      | (name, candidate :: more) :: rest => exact absurd whole (noCandidate _ _ _ _)

theorem complete_of_question (i : Inquiry) (m : Meaning) (normal : i.Normal)
    (question : i.question? = none) : i.complete m = i.known := by
  obtain ⟨types, calls⟩ := i.left_of_question normal question
  simp [complete, types, calls, Meaning.types, Meaning.methods]

end Inquiry

namespace Resolving

inductive Move (r : Resolving) (t : Tables) : Progress Resolving References → Tables → Prop where
  | done (question : r.inquiry.question? = none) : Move r t (.finished r.inquiry.known) t
  | askType (candidate : String) (question : r.inquiry.question? = some (.type candidate))
      (free : r.asked = none) :
      Move r t (.continuing { r with asked := some t.types.lookups.length })
        { t with types := t.types.seek candidate (.ofType candidate) }
  | askMethod (call : Call) (question : r.inquiry.question? = some (.method call))
      (free : r.asked = none) :
      Move r t (.continuing { r with asked := some t.methods.lookups.length })
        { t with
          methods := t.methods.seek r.outline.owner (.ofMethod call.name (.accepting call.arity)) }
  | hearType (candidate : String) (question : r.inquiry.question? = some (.type candidate))
      (index : Nat) (asked : r.asked = some index) (l : Lookup TypeDeclaration)
      (there : t.types.lookups[index]? = some l) (found : Option TypeDeclaration)
      (settled : l.phase = .settled found) :
      Move r t (.continuing { r with inquiry := r.inquiry.answerType found, asked := none }) t
  | hearMethod (call : Call) (question : r.inquiry.question? = some (.method call))
      (index : Nat) (asked : r.asked = some index) (l : Lookup MethodDeclaration)
      (there : t.methods.lookups[index]? = some l) (found : Option MethodDeclaration)
      (settled : l.phase = .settled found) :
      Move r t (.continuing { r with inquiry := r.inquiry.answerMethod found, asked := none }) t

/-- A lookup in a sound table is only heard once it has settled. -/
theorem heed_settled {α : Type} [Named α] {r : Resolving} {answer : Option α → Inquiry}
    {t : Table α} (sound : t.Sound) {index : Nat} {l : Lookup α}
    (there : t.lookups[index]? = some l) {progress : Progress Resolving References}
    (heeded : r.heed? answer l.phase = some progress) :
    ∃ found, l.phase = .settled found ∧
      progress = .continuing { r with inquiry := answer found, asked := none } := by
  have known := sound.informed index l there
  cases phase : l.phase with
  | settled found =>
    rw [phase] at heeded
    exact ⟨found, rfl, (Option.some.inj heeded).symm⟩
  | closed | cancelled =>
    rw [phase] at known
    exact known.elim
  | starting | opening | missed | subscribing | listening | confirming | waiting | dismissed
  | closing => simp [phase, heed?] at heeded

/-- With sound tables no step fails. -/
theorem step_move {r : Resolving} {t t' : Tables} {progress : Progress Resolving References}
    (types : t.types.Sound) (methods : t.methods.Sound) (step : r.step? t = some (progress, t')) :
    r.Move t progress t' := by
  unfold step? at step
  split at step
  · next question =>
    cases step
    exact .done question
  · next candidate question free =>
    cases step
    exact .askType candidate question free
  · next call question free =>
    cases step
    exact .askMethod call question free
  · next candidate index question asked =>
    split at step
    · contradiction
    · next l there =>
      obtain ⟨result, heeded, same⟩ := Option.map_eq_some_iff.mp step
      obtain ⟨rfl, rfl⟩ := Prod.mk.inj same
      obtain ⟨found, settled, rfl⟩ := heed_settled types there heeded
      exact .hearType candidate question index asked l there found settled
  · next call index question asked =>
    split at step
    · contradiction
    · next l there =>
      obtain ⟨result, heeded, same⟩ := Option.map_eq_some_iff.mp step
      obtain ⟨rfl, rfl⟩ := Prod.mk.inj same
      obtain ⟨found, settled, rfl⟩ := heed_settled methods there heeded
      exact .hearMethod call question index asked l there found settled

end Resolving

end UnitCompiler
