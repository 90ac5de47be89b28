import UnitCompiler.Proofs.InliningPropagation

/-! Captured arguments. Reads of a parameter are counted by name, in the arguments as well as in the body,
but an argument that reads a variable spelled like a parameter means one of the caller. A call is reduced
the way its body asks for exactly if the arguments do not change which parameters are read once. -/

namespace UnitCompiler

namespace Instruction

variable {values values' : Substitution}

def accessed : Instruction → Option String
  | .access name _ => some name
  | _ => none

mutual

/-- Reads are the accesses inside an instruction. -/
theorem reads_eq_count (name : String) : (i : Instruction) →
    i.reads name = (i.parts.filterMap accessed).count name
  | .literal _ | .stream _ => rfl
  | .access other type => by
    simp [reads, parts, accessed, List.count_cons]
  | .declare other type value => by
    rw [reads, parts, List.filterMap_cons_none rfl, reads_eq_count name value]
  | .invoke kind receiver owner method shape arguments => by
    rw [reads, parts, List.filterMap_cons_none rfl, List.filterMap_append, List.count_append,
      readsReceiver_eq_count name receiver, readsAll_eq_count name arguments]

theorem readsReceiver_eq_count (name : String) : (receiver : Option Instruction) →
    readsReceiver name receiver = ((partsReceiver receiver).filterMap accessed).count name
  | none => rfl
  | some receiver => reads_eq_count name receiver

theorem readsAll_eq_count (name : String) : (code : List Instruction) →
    readsAll name code = ((partsAll code).filterMap accessed).count name
  | [] => rfl
  | i :: rest => by
    rw [readsAll, partsAll, List.filterMap_append, List.count_append, reads_eq_count name i,
      readsAll_eq_count name rest]

end

mutual

/-- Only what is found under the names counts. -/
theorem substitute_congr (same : ∀ name, values.lookup name = values'.lookup name) :
    (i : Instruction) → i.substitute values = i.substitute values'
  | .literal _ | .stream _ => rfl
  | .access name type => by rw [substitute, substitute, same]
  | .declare name type value => by rw [substitute, substitute, substitute_congr same value]
  | .invoke kind receiver owner name shape arguments => by
    rw [substitute, substitute, substituteReceiver_congr same receiver,
      substituteAll_congr same arguments]

theorem substituteReceiver_congr (same : ∀ name, values.lookup name = values'.lookup name) :
    (receiver : Option Instruction) →
    substituteReceiver values receiver = substituteReceiver values' receiver
  | none => rfl
  | some receiver => by rw [substituteReceiver, substituteReceiver, substitute_congr same receiver]

theorem substituteAll_congr (same : ∀ name, values.lookup name = values'.lookup name) :
    (code : List Instruction) → substituteAll values code = substituteAll values' code
  | [] => rfl
  | i :: rest => by
    rw [substituteAll, substituteAll, substitute_congr same i, substituteAll_congr same rest]

end

/-- The values that are put in the place of reads, in the order of the reads. -/
def placed (values : Substitution) (code : List Instruction) : List Instruction :=
  ((partsAll code).filterMap accessed).filterMap fun name => values.lookup name

end Instruction

namespace Inlining

open Instruction

variable {arguments : List Instruction} {target : MethodDeclaration} {slots : List Slot}
  {body : List Instruction}

def assignments (slots : List Slot) : Substitution := slots.map fun slot => (slot.1.name, slot.2)

/-- A call as its body asks for: a binding of each parameter that the body does not read exactly once,
then the body with the other arguments in the place of the reads. -/
def reduced (arguments : List Instruction) (target : MethodDeclaration) : List Instruction :=
  let slots := target.parameters.zip arguments
  (slots.filter fun slot => !readOnce target.body slot).map Slot.binding ++
    substituteAll (assignments (slots.filter (readOnce target.body))) target.body

/-- The arguments read no parameter that the body reads once, and not exactly once one that the body does
not read. -/
def Unmixed (arguments : List Instruction) (target : MethodDeclaration) : Prop :=
  ∀ p ∈ target.parameters, (readsAll p.name target.body = 1 → readsAll p.name arguments = 0) ∧
    (readsAll p.name target.body = 0 → readsAll p.name arguments ≠ 1)

instance (arguments : List Instruction) (target : MethodDeclaration) : Decidable (Unmixed arguments target) :=
  inferInstanceAs (Decidable (∀ p ∈ target.parameters, _))

/-! ## Values under names -/

theorem names_assignments (slots : List Slot) :
    (assignments slots).map Prod.fst = slots.map fun slot => slot.1.name := by
  simp [assignments, Function.comp_def]

theorem lookup_reverse {list : Substitution} (distinct : (list.map Prod.fst).Nodup) (name : String) :
    list.reverse.lookup name = list.lookup name := by
  cases found : list.lookup name with
  | none =>
    rw [List.lookup_eq_none_iff] at found ⊢
    exact fun entry member => found entry (List.mem_reverse.mp member)
  | some value =>
    obtain ⟨before, behind, split, -⟩ := List.lookup_eq_some_iff.mp found
    exact lookup_reverse_of_mem distinct (by simp [split])

theorem names_filter_nodup (distinct : (slots.map fun slot => slot.1.name).Nodup) (keep : Slot → Bool) :
    ((assignments (slots.filter keep)).map Prod.fst).Nodup := by
  rw [names_assignments]
  exact distinct.sublist (List.filter_sublist.map _)

/-- Values that are found from either end are put in the same places. -/
theorem substituteAll_moved (distinct : (slots.map fun slot => slot.1.name).Nodup) :
    substituteAll (moved body slots) body =
      substituteAll (assignments (slots.filter (readOnce body))) body :=
  substituteAll_congr (lookup_reverse (names_filter_nodup distinct _)) body

/-! ## The boundary -/

/-- The arguments do not change whether a parameter is read once. -/
theorem readOnce_expand_eq_iff (complete : arguments.length = target.parameters.length) (slot : Slot) :
    readOnce (expand arguments target) slot = readOnce target.body slot ↔
      (readsAll slot.1.name target.body = 1 → readsAll slot.1.name arguments = 0) ∧
        (readsAll slot.1.name target.body = 0 → readsAll slot.1.name arguments ≠ 1) := by
  rw [readOnce, readsAll_expand complete, readOnce, Bool.eq_iff_iff, beq_iff_eq, beq_iff_eq]
  omega

theorem unmixed_iff (complete : arguments.length = target.parameters.length) :
    Unmixed arguments target ↔ ∀ slot ∈ target.parameters.zip arguments,
      readOnce (expand arguments target) slot = readOnce target.body slot := by
  have covers : target.parameters = (target.parameters.zip arguments).map Prod.fst :=
    (List.map_fst_zip (by rw [complete])).symm
  simp only [readOnce_expand_eq_iff complete]
  rw [Unmixed]
  conv_lhs => rw [covers]
  rw [List.forall_mem_map]

/-- Whether a slot is kept depends on the name of its parameter alone. -/
theorem mem_kept_iff (code : List Instruction) {slot : Slot} (inside : slot ∈ slots) :
    slot.1.name ∈ (slots.filter fun slot => !readOnce code slot).map (fun slot => slot.1.name) ↔
      readOnce code slot = false := by
  constructor
  · intro member
    obtain ⟨other, kept, same⟩ := List.mem_map.mp member
    have unread := (List.mem_filter.mp kept).2
    rw [readOnce, ← same, ← readOnce]
    simpa using unread
  · intro unread
    exact List.mem_map.mpr ⟨slot, List.mem_filter.mpr ⟨inside, by simp [unread]⟩, rfl⟩

def declared : Instruction → Option String
  | .declare name _ _ => some name
  | _ => none

/-- Bindings tell which parameters were read once. -/
theorem readOnce_eq_of_bindings {code code' : List Instruction} {values : Substitution}
    (same : ((slots.filter fun slot => !readOnce code slot).map Slot.binding).map (substitute values) =
      (slots.filter fun slot => !readOnce code' slot).map Slot.binding) :
    ∀ slot ∈ slots, readOnce code slot = readOnce code' slot := by
  have names := congrArg (List.filterMap declared) same
  rw [List.map_map, List.filterMap_map, List.filterMap_map] at names
  have names : (slots.filter fun slot => !readOnce code slot).map (fun slot => slot.1.name) =
      (slots.filter fun slot => !readOnce code' slot).map fun slot => slot.1.name := by
    rw [← List.filterMap_eq_map]
    exact names
  intro slot inside
  rw [Bool.eq_iff_iff, ← Bool.not_eq_false, ← Bool.not_eq_false, ← mem_kept_iff code inside,
    ← mem_kept_iff code' inside, names]

/-- A binding whose argument reads nothing that is moved stays as it is. -/
theorem substitute_binding_of_unmixed (unmixed : Unmixed arguments target) {slot : Slot}
    (inside : slot ∈ target.parameters.zip arguments) :
    slot.binding.substitute (moved target.body (target.parameters.zip arguments)) = slot.binding := by
  apply substitute_of_spares
  intro name i found
  obtain ⟨other, there, rfl, -, once⟩ := exists_of_moved found
  have silent := (unmixed other.1 (Movable.mem_slots there).1).1 once
  rw [readsAll_eq, List.sum_eq_zero_iff_forall_eq_nat, List.forall_mem_map] at silent
  exact silent slot.2 (Movable.mem_slots inside).2

theorem inline_eq_reduced_iff (complete : arguments.length = target.parameters.length)
    (distinct : (target.parameters.map Parameter.name).Nodup)
    (undeclared : ∀ i ∈ target.body, ∀ p ∈ target.parameters, ¬ i.Declares p.name) :
    inline arguments target = .ok (reduced arguments target) ↔ Unmixed arguments target := by
  rw [← names_zip complete] at distinct
  rw [inline_eq_expanded complete undeclared, Except.ok.injEq, reduced, ← substituteAll_moved distinct,
    substituteAll_eq, List.map_append]
  constructor
  · intro same
    have bound := List.append_inj_left' same (by simp)
    exact (unmixed_iff complete).mpr (readOnce_eq_of_bindings bound)
  · intro unmixed
    have once := (unmixed_iff complete).mp unmixed
    have kept := List.filter_congr fun slot inside => congrArg (!·) (once slot inside)
    have stays : ∀ i ∈ ((target.parameters.zip arguments).filter fun slot =>
        !readOnce target.body slot).map Slot.binding,
        i.substitute (moved target.body (target.parameters.zip arguments)) = i := by
      intro i member
      obtain ⟨slot, inside, rfl⟩ := List.mem_map.mp member
      exact substitute_binding_of_unmixed unmixed (List.mem_of_mem_filter inside)
    rw [moved, List.filter_congr once, ← moved, kept, List.map_congr_left stays, List.map_id']

/-! ## Bodies that read every parameter once -/

theorem filterMap_lookup_assignments (distinct : (slots.map fun slot => slot.1.name).Nodup) :
    (slots.map fun slot => slot.1.name).filterMap (fun name => (assignments slots).lookup name) =
      slots.map Prod.snd := by
  have each : ∀ slot ∈ slots, (assignments slots).lookup slot.1.name = some slot.2 := by
    intro slot inside
    have distinct : ((assignments slots).map Prod.fst).Nodup := by rwa [names_assignments]
    rw [← lookup_reverse distinct]
    exact lookup_reverse_of_mem distinct (List.mem_map_of_mem inside)
  rw [List.filterMap_map, ← List.filterMap_eq_map]
  exact List.filterMap_congr each

/-- If a body reads every parameter once, every argument is put in place once. -/
theorem placed_perm (complete : arguments.length = target.parameters.length)
    (distinct : (target.parameters.map Parameter.name).Nodup)
    (once : ∀ p ∈ target.parameters, readsAll p.name target.body = 1) :
    (placed (assignments (target.parameters.zip arguments)) target.body).Perm arguments := by
  have names := names_zip complete
  rw [← names] at distinct
  have absent (name : String) (other : name ∉ target.parameters.map Parameter.name) :
      (assignments (target.parameters.zip arguments)).lookup name = none := by
    rw [List.lookup_eq_none_iff]
    intro entry member
    rw [bne_iff_ne]
    rintro rfl
    have among := List.mem_map_of_mem (f := Prod.fst) member
    rw [names_assignments, names] at among
    exact other among
  -- The reads of parameters are the parameters, in another order.
  have reads : (((partsAll target.body).filterMap accessed).filter
      fun name => target.parameters.map Parameter.name |>.contains name).Perm
      (target.parameters.map Parameter.name) := by
    rw [List.perm_iff_count]
    intro name
    by_cases parameter : name ∈ target.parameters.map Parameter.name
    · rw [List.count_filter (by simpa using parameter), ← readsAll_eq_count]
      obtain ⟨p, member, rfl⟩ := List.mem_map.mp parameter
      rw [once p member, List.count_eq_one_of_mem (names ▸ distinct) parameter]
    · rw [List.count_eq_zero_of_not_mem parameter, List.count_eq_zero]
      intro member
      exact parameter (by simpa using (List.mem_filter.mp member).2)
  have values := reads.filterMap fun name => (assignments (target.parameters.zip arguments)).lookup name
  rw [← names, filterMap_lookup_assignments distinct, List.map_snd_zip (by rw [complete]), names,
    List.filterMap_filter] at values
  refine List.Perm.trans (List.Perm.of_eq (List.filterMap_congr fun name _ => ?_)) values
  split
  · rfl
  · next other => exact absent name (by simpa using other)

theorem reduced_of_once (arguments : List Instruction)
    (once : ∀ p ∈ target.parameters, readsAll p.name target.body = 1) :
    reduced arguments target =
      substituteAll (assignments (target.parameters.zip arguments)) target.body := by
  have all : ∀ slot ∈ target.parameters.zip arguments, readOnce target.body slot = true := by
    intro slot inside
    rw [readOnce, once slot.1 (Movable.mem_slots inside).1]
    rfl
  have none : (target.parameters.zip arguments).filter (fun slot => !readOnce target.body slot) = [] := by
    rw [List.filter_eq_nil_iff]
    intro slot inside
    simp [all slot inside]
  rw [reduced, List.filter_eq_self.mpr all, none]
  rfl

/-- A call is reduced as its body asks for exactly if the arguments do not change which parameters are read
once. For a body that reads every parameter once, that is the body with all arguments put in place at the
same time, each of them once. -/
theorem inline_reduces_iff_unmixed (arguments : List Instruction) (target : MethodDeclaration)
    (complete : arguments.length = target.parameters.length)
    (distinct : (target.parameters.map Parameter.name).Nodup)
    (undeclared : ∀ i ∈ target.body, ∀ p ∈ target.parameters, ¬ i.Declares p.name) :
    (inline arguments target = .ok (reduced arguments target) ↔ Unmixed arguments target) ∧
    ((∀ p ∈ target.parameters, readsAll p.name target.body = 1) →
      reduced arguments target =
        substituteAll (assignments (target.parameters.zip arguments)) target.body ∧
      (placed (assignments (target.parameters.zip arguments)) target.body).Perm arguments) :=
  ⟨inline_eq_reduced_iff complete distinct undeclared,
    fun once => ⟨reduced_of_once arguments once, placed_perm complete distinct once⟩⟩

def calling (name : String) (arguments : List Instruction) : Instruction :=
  .invoke .static none (.named "app.Main") name ⟨.void, arguments.map typeRef⟩ arguments

/-- The body `h(y, x, y)` of a function of `x`, `y` and `z`. -/
def doubled : MethodDeclaration where
  name := "f"
  parameters := [⟨"x", .int, none⟩, ⟨"y", .int, none⟩, ⟨"z", .int, none⟩]
  returnType := .void
  body := [calling "h" [.access "y" .int, .access "x" .int, .access "y" .int]]

/-- Arguments may read a variable spelled like a parameter that the body reads twice. -/
theorem doubled_reduced :
    Unmixed [.access "v" .int, .access "y" .int, .access "y" .int] doubled ∧
    inline [.access "v" .int, .access "y" .int, .access "y" .int] doubled = .ok
      (reduced [.access "v" .int, .access "y" .int, .access "y" .int] doubled) ∧
    reduced [.access "v" .int, .access "y" .int, .access "y" .int] doubled =
      [.declare "y" .int (.access "y" .int), .declare "z" .int (.access "y" .int),
        calling "h" [.access "y" .int, .access "v" .int, .access "y" .int]] := by
  have undeclared : ∀ i ∈ doubled.body, ∀ p ∈ doubled.parameters, ¬ i.Declares p.name := by
    simp [doubled, calling, Declares, parts, partsReceiver, partsAll]
  have unmixed : Unmixed [.access "v" .int, .access "y" .int, .access "y" .int] doubled := by decide
  refine ⟨unmixed, ?_, by decide⟩
  exact (inline_reduces_iff_unmixed _ doubled rfl (by decide) undeclared).1.mpr unmixed

/-- The body `g(x, y)` of a function of `x` and `y`. -/
def crossed : MethodDeclaration where
  name := "f"
  parameters := [⟨"x", .int, none⟩, ⟨"y", .int, none⟩]
  returnType := .void
  body := [calling "g" [.access "x" .int, .access "y" .int]]

/-- Called with a variable `y` and a number, the variable is captured: the body is to read the variable and
the number, and reads the number twice. -/
theorem crossed_captured :
    (crossed.parameters.map Parameter.name).Nodup ∧
    (∀ i ∈ crossed.body, ∀ name, ¬ i.Declares name) ∧
    (∀ p ∈ crossed.parameters, readsAll p.name crossed.body = 1) ∧
    reduced [.access "y" .int, .literal (.int 5)] crossed =
      [calling "g" [.access "y" .int, .literal (.int 5)]] ∧
    inline [.access "y" .int, .literal (.int 5)] crossed = .ok
      [.declare "y" .int (.literal (.int 5)), calling "g" [.access "y" .int, .access "y" .int]] ∧
    inline [.access "y" .int, .literal (.int 5)] crossed ≠
      .ok (reduced [.access "y" .int, .literal (.int 5)] crossed) := by
  refine ⟨by decide, ?_, by decide, by decide, by decide, by decide⟩
  simp [crossed, calling, Declares, parts, partsReceiver, partsAll]

end Inlining

end UnitCompiler
