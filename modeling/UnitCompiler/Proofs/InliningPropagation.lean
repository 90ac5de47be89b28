import UnitCompiler.Proofs.Evaluation
import UnitCompiler.Proofs.InliningHygiene

/-! Inlining preserves meaning. An argument that the body of the callee reads once is moved to where it is
read. As long as it does nothing and the variables it reads stay as they are, inlined code does the same
as all bindings followed by the body. -/

namespace UnitCompiler

namespace Instruction

variable {values : Substitution}

/-- No variable that is replaced is read. -/
def Spares (values : Substitution) (reads : String → Nat) : Prop :=
  ∀ name i, values.lookup name = some i → reads name = 0

mutual

theorem substitute_of_spares : (i : Instruction) → Spares values (fun name => i.reads name) →
    i.substitute values = i
  | .literal _, _ | .stream _, _ => rfl
  | .access name type, spares => by
    rw [substitute]
    cases found : values.lookup name with
    | none => rfl
    | some i => simpa [reads] using spares name i found
  | .declare name type value, spares => by
    rw [substitute, substitute_of_spares value spares]
  | .invoke kind receiver owner name shape arguments, spares => by
    have first : Spares values (fun name => readsReceiver name receiver) :=
      fun name i found => (Nat.add_eq_zero_iff.mp (spares name i found)).1
    have later : Spares values (fun name => readsAll name arguments) :=
      fun name i found => (Nat.add_eq_zero_iff.mp (spares name i found)).2
    rw [substitute, substituteReceiver_of_spares receiver first, substituteAll_of_spares arguments later]

theorem substituteReceiver_of_spares : (receiver : Option Instruction) →
    Spares values (fun name => readsReceiver name receiver) →
    substituteReceiver values receiver = receiver
  | none, _ => rfl
  | some receiver, spares => by
    rw [substituteReceiver, substitute_of_spares receiver spares]

theorem substituteAll_of_spares : (code : List Instruction) →
    Spares values (fun name => readsAll name code) → substituteAll values code = code
  | [], _ => rfl
  | i :: rest, spares => by
    have first : Spares values (fun name => i.reads name) :=
      fun name i found => (Nat.add_eq_zero_iff.mp (spares name i found)).1
    have later : Spares values (fun name => readsAll name rest) :=
      fun name i found => (Nat.add_eq_zero_iff.mp (spares name i found)).2
    rw [substituteAll, substitute_of_spares i first, substituteAll_of_spares rest later]

end

end Instruction

namespace Inlining

open Instruction

abbrev Slot := Parameter × Instruction

def Slot.binding (slot : Slot) : Instruction := .declare slot.1.name slot.1.type slot.2

structure Movable (arguments : List Instruction) (target : MethodDeclaration) : Prop where
  complete : arguments.length = target.parameters.length
  distinct : (target.parameters.map Parameter.name).Nodup
  /-- No argument reads a variable that is named like a parameter. -/
  unread : ∀ a ∈ arguments, ∀ p ∈ target.parameters, a.reads p.name = 0
  /-- Neither the body nor an argument declares a parameter or a variable that an argument reads. -/
  undeclared : ∀ i ∈ target.body ++ arguments, ∀ name, i.Declares name →
    name ∉ target.parameters.map Parameter.name ∧ ∀ a ∈ arguments, a.reads name = 0
  /-- An argument that the body reads once does nothing. -/
  inert : ∀ slot ∈ target.parameters.zip arguments, readsAll slot.1.name target.body = 1 → slot.2.Inert

/-- A variable whose binding is dropped. -/
def Eliminated (target : MethodDeclaration) (name : String) : Prop :=
  name ∈ target.parameters.map Parameter.name ∧ readsAll name target.body = 1

/-! ## The values that are moved -/

def readOnce (body : List Instruction) (slot : Slot) : Bool := readsAll slot.1.name body == 1

/-- The values of the parameters that a body reads once; a later one comes first. -/
def moved (body : List Instruction) (slots : List Slot) : Substitution :=
  ((slots.filter (readOnce body)).map fun slot => (slot.1.name, slot.2)).reverse

section Moved

variable {body : List Instruction} {slots : List Slot} {name : String} {i : Instruction}

theorem moved_concat_of_once {slot : Slot} (once : readOnce body slot = true) :
    moved body (slots ++ [slot]) = (slot.1.name, slot.2) :: moved body slots := by
  simp [moved, once]

theorem moved_concat_of_kept {slot : Slot} (kept : readOnce body slot = false) :
    moved body (slots ++ [slot]) = moved body slots := by
  simp [moved, kept]

theorem exists_of_moved (found : (moved body slots).lookup name = some i) :
    ∃ slot ∈ slots, slot.1.name = name ∧ slot.2 = i ∧ readsAll name body = 1 := by
  obtain ⟨before, behind, split, -⟩ := List.lookup_eq_some_iff.mp found
  have member : (name, i) ∈ moved body slots := by simp [split]
  simp only [moved, List.mem_reverse, List.mem_map, List.mem_filter, Prod.mk.injEq] at member
  obtain ⟨slot, ⟨inside, once⟩, rfl, rfl⟩ := member
  exact ⟨slot, inside, rfl, rfl, by simpa [readOnce] using once⟩

theorem moved_eq_none_iff : (moved body slots).lookup name = none ↔
    ∀ slot ∈ slots, slot.1.name = name → readsAll name body ≠ 1 := by
  rw [List.lookup_eq_none_iff]
  simp only [moved, List.mem_reverse, List.mem_map, List.mem_filter, bne_iff_ne]
  constructor
  · rintro apart slot inside rfl once
    exact apart _ ⟨slot, ⟨inside, by simp [readOnce, once]⟩, rfl⟩ rfl
  · rintro absent _ ⟨slot, ⟨inside, once⟩, rfl⟩ rfl
    exact absent slot inside rfl (by simpa [readOnce] using once)

end Moved

theorem names_zip {arguments : List Instruction} {target : MethodDeclaration}
    (complete : arguments.length = target.parameters.length) :
    (target.parameters.zip arguments).map (fun slot => slot.1.name) =
      target.parameters.map Parameter.name := by
  have first : (target.parameters.zip arguments).map Prod.fst = target.parameters :=
    List.map_fst_zip (by rw [complete])
  conv_rhs => rw [← first, List.map_map]
  rfl

namespace Movable

variable {arguments : List Instruction} {target : MethodDeclaration} {slots : List Slot}

theorem mem_slots {slot : Slot} (inside : slot ∈ target.parameters.zip arguments) :
    slot.1 ∈ target.parameters ∧ slot.2 ∈ arguments :=
  List.of_mem_zip inside

theorem quiet (movable : Movable arguments target)
    (among : ∀ slot ∈ slots, slot ∈ target.parameters.zip arguments) : Quiet (moved target.body slots) := by
  intro name i found
  obtain ⟨slot, inside, rfl, rfl, once⟩ := exists_of_moved found
  exact movable.inert slot (among slot inside) once

/-- No argument reads a parameter, so nothing changes in it. -/
theorem spares (movable : Movable arguments target)
    (among : ∀ slot ∈ slots, slot ∈ target.parameters.zip arguments) {a : Instruction}
    (argument : a ∈ arguments) : Spares (moved target.body slots) (fun name => a.reads name) := by
  intro name i found
  obtain ⟨slot, inside, rfl, -, -⟩ := exists_of_moved found
  exact movable.unread a argument slot.1 (mem_slots (among slot inside)).1

/-- What the body and the arguments declare is neither moved nor read by what is moved. -/
theorem clear (movable : Movable arguments target)
    (among : ∀ slot ∈ slots, slot ∈ target.parameters.zip arguments) {i : Instruction}
    (inside : i ∈ target.body ++ arguments) {name : String} (declares : i.Declares name) :
    Clear (moved target.body slots) name := by
  obtain ⟨other, unread⟩ := movable.undeclared i inside name declares
  constructor
  · rw [moved_eq_none_iff]
    rintro slot there rfl
    exact absurd (List.mem_map_of_mem (mem_slots (among slot there)).1) other
  · intro key value found
    obtain ⟨slot, there, -, rfl, -⟩ := exists_of_moved found
    exact unread slot.2 (mem_slots (among slot there)).2

/-- A parameter that is still to be bound. -/
theorem clear_next (movable : Movable arguments target) {slot : Slot} {rest : List Slot}
    (split : target.parameters.zip arguments = slots ++ slot :: rest) :
    Clear (moved target.body slots) slot.1.name := by
  have among (other : Slot) (inside : other ∈ slots) : other ∈ target.parameters.zip arguments := by
    rw [split]
    exact List.mem_append_left _ inside
  have own : slot ∈ target.parameters.zip arguments := by simp [split]
  have apart := movable.distinct
  rw [← names_zip movable.complete, split, List.map_append, List.map_cons, List.nodup_middle,
    List.nodup_cons] at apart
  constructor
  · rw [moved_eq_none_iff]
    intro other inside same
    refine absurd ?_ apart.1
    rw [← same]
    exact List.mem_append_left _ (List.mem_map_of_mem (f := fun slot : Slot => slot.1.name) inside)
  · intro key value found
    obtain ⟨other, inside, -, rfl, -⟩ := exists_of_moved found
    exact movable.unread _ (mem_slots (among other inside)).2 slot.1 (mem_slots own).1

/-! ## Inlined code -/

theorem expand_eq (arguments : List Instruction) (target : MethodDeclaration) :
    expand arguments target = (target.parameters.zip arguments).map Slot.binding ++ target.body := by
  rw [expand, bindings, List.map_zip_eq_zipWith]
  rfl

/-- Each binding is moved or kept, in order. -/
theorem split_bindings (body : List Instruction) {propagated : Instruction → Option (String × Instruction)}
    (bound : ∀ slot ∈ slots, propagated slot.binding =
      if readOnce body slot then some (slot.1.name, slot.2) else none) :
    (slots.map Slot.binding).filterMap propagated =
        (slots.filter (readOnce body)).map (fun slot => (slot.1.name, slot.2)) ∧
      (slots.map Slot.binding).filter (fun i => (propagated i).isNone) =
        (slots.filter fun slot => !readOnce body slot).map Slot.binding := by
  induction slots with
  | nil => exact ⟨rfl, rfl⟩
  | cons slot rest ih =>
    obtain ⟨own, others⟩ := List.forall_mem_cons.mp bound
    obtain ⟨values, kept⟩ := ih others
    cases once : readOnce body slot <;> simp [own, once, values, kept]

end Movable

section Expanded

variable {arguments : List Instruction} {target : MethodDeclaration}

/-- The bindings read what the arguments read. -/
theorem readsAll_expand (complete : arguments.length = target.parameters.length) (name : String) :
    readsAll name (expand arguments target) = readsAll name arguments + readsAll name target.body := by
  have second : (target.parameters.zip arguments).map Prod.snd = arguments :=
    List.map_snd_zip (by rw [complete])
  have bound : ((target.parameters.zip arguments).map Slot.binding).map (reads name) =
      arguments.map (reads name) := by
    conv_rhs => rw [← second, List.map_map]
    rw [List.map_map]
    rfl
  rw [Movable.expand_eq, readsAll_eq, List.map_append, List.sum_append, bound, ← readsAll_eq, ← readsAll_eq]

theorem propagated_binding (code : List Instruction) {slot : Slot}
    (inside : slot ∈ target.parameters.zip arguments) :
    propagated? (target.parameters.map Parameter.name) code slot.binding =
      if readOnce code slot then some (slot.1.name, slot.2) else none := by
  have known := List.contains_iff_mem.mpr
    (List.mem_map_of_mem (f := Parameter.name) (Movable.mem_slots inside).1)
  simp only [Slot.binding, propagated?, readOnce, known, Bool.true_and]
  rfl

/-- A body that declares no parameter stays. -/
theorem propagated_body (undeclared : ∀ i ∈ target.body, ∀ p ∈ target.parameters, ¬ i.Declares p.name)
    (code : List Instruction) :
    ∀ i ∈ target.body, propagated? (target.parameters.map Parameter.name) code i = none := by
  intro i inside
  cases i with
  | declare name type value =>
    have other : name ∉ target.parameters.map Parameter.name := by
      intro member
      obtain ⟨p, parameter, rfl⟩ := List.mem_map.mp member
      exact undeclared _ inside p parameter ⟨type, value, List.mem_cons_self⟩
    simp [propagated?, show name ∉ target.parameters.map Parameter.name from other]
  | literal | access | invoke | stream => rfl

/-- What is left of a call. Reads are counted in the arguments and the body together, and values are put
into the other bindings as well. -/
theorem inline_eq_expanded (complete : arguments.length = target.parameters.length)
    (undeclared : ∀ i ∈ target.body, ∀ p ∈ target.parameters, ¬ i.Declares p.name) :
    inline arguments target = .ok
      ((((target.parameters.zip arguments).filter fun slot =>
          !readOnce (expand arguments target) slot).map Slot.binding ++ target.body).map
        (substitute (moved (expand arguments target) (target.parameters.zip arguments)))) := by
  obtain ⟨values, kept⟩ := Movable.split_bindings (expand arguments target)
    fun slot inside => propagated_binding (expand arguments target) inside
  have stays := propagated_body undeclared (expand arguments target)
  rw [inline, if_pos complete, propagate, moved]
  generalize readOnce (expand arguments target) = once at values kept
  generalize propagated? (target.parameters.map Parameter.name) (expand arguments target) =
    propagated at values kept stays
  have whole : target.body.filter (fun i => (propagated i).isNone) = target.body := by
    rw [List.filter_eq_self]
    intro i inside
    rw [stays i inside]
    rfl
  rw [Movable.expand_eq, List.filterMap_append, List.filterMap_eq_nil_iff.mpr stays, List.append_nil,
    values, List.filter_append, kept, whole]

end Expanded

namespace Movable

variable {arguments : List Instruction} {target : MethodDeclaration} {slots : List Slot}

/-- The arguments read no parameter. -/
theorem readOnce_expand (movable : Movable arguments target) {slot : Slot}
    (inside : slot ∈ target.parameters.zip arguments) :
    readOnce (expand arguments target) slot = readOnce target.body slot := by
  have silent : readsAll slot.1.name arguments = 0 := by
    rw [readsAll_eq, List.sum_eq_zero_iff_forall_eq_nat, List.forall_mem_map]
    exact fun a argument => movable.unread a argument slot.1 (mem_slots inside).1
  rw [readOnce, readsAll_expand movable.complete, silent, Nat.zero_add, readOnce]

/-- What is left of a call: the other bindings, then the body with the values in place. -/
theorem inline_eq (movable : Movable arguments target) :
    inline arguments target = .ok
      (((target.parameters.zip arguments).filter fun slot => !readOnce target.body slot).map Slot.binding ++
        substituteAll (moved target.body (target.parameters.zip arguments)) target.body) := by
  have undeclared : ∀ i ∈ target.body, ∀ p ∈ target.parameters, ¬ i.Declares p.name :=
    fun i inside p parameter declares => (movable.undeclared i (List.mem_append_left _ inside) _ declares).1
      (List.mem_map_of_mem parameter)
  have same (slot : Slot) (inside : slot ∈ target.parameters.zip arguments) :=
    movable.readOnce_expand inside
  have kept := List.filter_congr fun slot inside => congrArg (!·) (same slot inside)
  have unchanged : ∀ i ∈ ((target.parameters.zip arguments).filter fun slot =>
      !readOnce target.body slot).map Slot.binding,
      i.substitute (moved target.body (target.parameters.zip arguments)) = i := by
    intro i member
    obtain ⟨slot, inside, rfl⟩ := List.mem_map.mp member
    have spared := movable.spares (fun _ there => there) (mem_slots (List.mem_of_mem_filter inside)).2
    exact substitute_of_spares slot.binding spared
  rw [inline_eq_expanded movable.complete undeclared, moved, List.filter_congr same, kept, ← moved,
    List.map_append, List.map_congr_left unchanged, List.map_id', substituteAll_eq]

/-! ## Runs -/

variable {V σ : Type} {m : Interpretation V σ} {s s' : Machine V σ}

/-- A binding that is dropped. -/
theorem mirrors_once (movable : Movable arguments target) {slot : Slot} {rest : List Slot}
    (split : target.parameters.zip arguments = slots ++ slot :: rest)
    (once : readOnce target.body slot = true) (mirrors : Mirrors m (moved target.body slots) s s') :
    Mirrors m (moved target.body (slots ++ [slot])) (m.eval slot.binding s).2 s' := by
  have among (other : Slot) (inside : other ∈ slots) : other ∈ target.parameters.zip arguments := by
    rw [split]
    exact List.mem_append_left _ inside
  have own : slot ∈ target.parameters.zip arguments := by simp [split]
  have argument := (mem_slots own).2
  have inert : slot.2.Inert := movable.inert slot own (by simpa [readOnce] using once)
  have free := (movable.clear_next split).1
  -- The argument has now the value that it will have where it is read.
  have value : (m.eval slot.2 s).1 = (m.eval slot.2 s').1 := by
    have same := (mirrors.eval (movable.quiet among) slot.2
      fun name declares => movable.clear among (List.mem_append_right _ argument) declares).1
    rw [substitute_of_spares _ (movable.spares among argument)] at same
    exact same.symm
  rw [moved_concat_of_once once, Slot.binding, m.eval_declare, inert.eval]
  refine ⟨mirrors.trace, mirrors.shared, fun name i found => ?_, fun name absent => ?_⟩
  · rw [List.lookup_cons] at found
    by_cases same : name = slot.1.name
    · rw [same, beq_self_eq_true] at found
      obtain rfl := Option.some.inj found
      rw [same, Machine.assign_same, value]
    · rw [beq_eq_false_iff_ne.mpr same] at found
      rw [Machine.assign_other s _ same, mirrors.replaced name i found]
  · rw [List.lookup_cons] at absent
    have apart : name ≠ slot.1.name := by
      rintro rfl
      simp at absent
    rw [beq_eq_false_iff_ne.mpr apart] at absent
    rw [Machine.assign_other s _ apart, mirrors.others name absent]

/-- A binding that stays. -/
theorem mirrors_kept (movable : Movable arguments target) {slot : Slot} {rest : List Slot}
    (split : target.parameters.zip arguments = slots ++ slot :: rest)
    (mirrors : Mirrors m (moved target.body slots) s s') :
    Mirrors m (moved target.body slots) (m.eval slot.binding s).2 (m.eval slot.binding s').2 := by
  have among (other : Slot) (inside : other ∈ slots) : other ∈ target.parameters.zip arguments := by
    rw [split]
    exact List.mem_append_left _ inside
  have own : slot ∈ target.parameters.zip arguments := by simp [split]
  have argument := (mem_slots own).2
  have clear (name : String) (declares : slot.binding.Declares name) :
      Clear (moved target.body slots) name := by
    rcases declares.declare with rfl | inner
    · exact movable.clear_next split
    · exact movable.clear among (List.mem_append_right _ argument) inner
  have moves := (mirrors.eval (movable.quiet among) slot.binding clear).2
  have spared := movable.spares among argument
  rwa [substitute_of_spares slot.binding spared] at moves

theorem mirrors_bindings (movable : Movable arguments target) {rest : List Slot}
    (split : target.parameters.zip arguments = slots ++ rest)
    (mirrors : Mirrors m (moved target.body slots) s s') :
    Mirrors m (moved target.body (slots ++ rest)) (m.run (rest.map Slot.binding) s)
      (m.run ((rest.filter fun slot => !readOnce target.body slot).map Slot.binding) s') := by
  induction rest generalizing slots s s' with
  | nil => simpa using mirrors
  | cons slot rest ih =>
    have next : target.parameters.zip arguments = (slots ++ [slot]) ++ rest := by simp [split]
    rw [List.append_cons, List.map_cons, Interpretation.run_cons]
    cases once : readOnce target.body slot with
    | true =>
      rw [List.filter_cons_of_neg (by simp [once])]
      exact ih next (movable.mirrors_once split once mirrors)
    | false =>
      rw [List.filter_cons_of_pos (by simp [once]), List.map_cons, Interpretation.run_cons]
      apply ih next
      rw [moved_concat_of_kept once]
      exact movable.mirrors_kept split mirrors

end Movable

/-- Inlining a call does the same as all bindings followed by the body, whatever invocations do: the same
invocations with the same values in the same order, and it leads to the same shared state and the same
variables, but for those whose bindings are dropped. -/
theorem inline_preserves_meaning (arguments : List Instruction) (target : MethodDeclaration)
    (movable : Movable arguments target) :
    ∃ code, inline arguments target = .ok code ∧
      ∀ (V σ : Type) (m : Interpretation V σ) (s : Machine V σ),
        (m.run code s).trace = (m.run (expand arguments target) s).trace ∧
        (m.run code s).shared = (m.run (expand arguments target) s).shared ∧
        ∀ name, ¬ Eliminated target name →
          (m.run code s).environment name = (m.run (expand arguments target) s).environment name := by
  refine ⟨_, movable.inline_eq, fun V σ m s => ?_⟩
  have start : Mirrors m (moved target.body []) s s := ⟨rfl, rfl, nofun, fun _ _ => rfl⟩
  have bound := movable.mirrors_bindings (List.nil_append _).symm start
  rw [List.nil_append] at bound
  have clear (name : String) (type : TypeRef) (value : Instruction)
      (inside : .declare name type value ∈ partsAll target.body) :
      Clear (moved target.body (target.parameters.zip arguments)) name := by
    rw [partsAll_eq] at inside
    obtain ⟨i, member, inside⟩ := List.mem_flatMap.mp inside
    exact movable.clear (fun _ there => there) (List.mem_append_left _ member) ⟨type, value, inside⟩
  have final := (bound.evalAll (movable.quiet fun _ there => there) target.body clear).2
  rw [Movable.expand_eq, m.run_append, m.run_append]
  refine ⟨final.trace, final.shared, fun name stays => (final.others name ?_).symm⟩
  rw [moved_eq_none_iff]
  rintro slot inside rfl once
  exact stays ⟨List.mem_map_of_mem (Movable.mem_slots inside).1, once⟩

/-- The first parameter is read once, deep inside a declaration; the second one twice and the third one
not at all. -/
def nestedTarget : MethodDeclaration where
  name := "f"
  parameters := [⟨"x", .int, none⟩, ⟨"y", .int, none⟩, ⟨"z", .int, none⟩]
  returnType := .void
  body :=
    [.declare "t" .int (.invoke .virtual (some (.invoke .static none .int "g" ⟨.int, [.int]⟩
        [.access "x" .int])) .int "h" ⟨.int, [.int]⟩ [.access "y" .int]),
      .invoke .static none .int "k" ⟨.void, [.int, .int]⟩ [.access "y" .int, .access "t" .int]]

/-- A variable, and two invocations that stay where they are. -/
def nestedArguments : List Instruction :=
  [.access "v" .int, .invoke .static none .int "a" ⟨.int, []⟩ [],
    .invoke .static none .int "b" ⟨.int, []⟩ []]

theorem nested_preserves_meaning :
    Movable nestedArguments nestedTarget ∧ ∃ code, inline nestedArguments nestedTarget = .ok code ∧
      code.length = 4 ∧ ∀ (V σ : Type) (m : Interpretation V σ) (s : Machine V σ),
        (m.run code s).trace = (m.run (expand nestedArguments nestedTarget) s).trace ∧
        (m.run code s).shared = (m.run (expand nestedArguments nestedTarget) s).shared ∧
        ∀ name, name ≠ "x" → (m.run code s).environment name =
          (m.run (expand nestedArguments nestedTarget) s).environment name := by
  have movable : Movable nestedArguments nestedTarget := by
    refine ⟨rfl, by decide, by decide, ?_, ?_⟩
    · rintro i inside name ⟨type, value, part⟩
      have own : name = "t" := by
        simp only [nestedTarget, nestedArguments, List.cons_append, List.nil_append, List.mem_cons,
          List.not_mem_nil, or_false] at inside
        rcases inside with rfl | rfl | rfl | rfl | rfl <;>
          simp_all [parts, partsReceiver, partsAll]
      subst own
      decide
    · intro slot inside once part member
      simp only [nestedTarget, nestedArguments, List.zip_cons_cons, List.zip_nil_left, List.mem_cons,
        List.not_mem_nil, or_false] at inside
      rcases inside with rfl | rfl | rfl
      · obtain rfl := List.mem_singleton.mp member
        exact ⟨rfl, by simp⟩
      · exact absurd once (by decide)
      · exact absurd once (by decide)
  have long : (inline nestedArguments nestedTarget).map List.length = .ok 4 := by decide
  obtain ⟨code, inlined, same⟩ := inline_preserves_meaning nestedArguments nestedTarget movable
  refine ⟨movable, code, inlined, ?_, fun V σ m s => ?_⟩
  · rw [inlined] at long
    exact Except.ok.inj long
  · obtain ⟨trace, shared, environment⟩ := same V σ m s
    refine ⟨trace, shared, fun name other => environment name ?_⟩
    rintro ⟨parameter, once⟩
    simp only [nestedTarget, List.map_cons, List.map_nil, List.mem_cons, List.not_mem_nil,
      or_false] at parameter
    rcases parameter with rfl | rfl | rfl
    · exact other rfl
    · exact absurd once (by decide)
    · exact absurd once (by decide)

end Inlining

end UnitCompiler
