import Mathlib.Algebra.GroupWithZero.Nat
import Mathlib.Data.List.Nodup
import UnitCompiler.Emission
import UnitCompiler.Proofs.Identifier

/-! The numbers of instances leave no trace. A call of a printing function is inlined into one
invocation with the arguments themselves, whatever the number of the instance, because no argument
reads a variable that is named like a parameter of an instance. -/

namespace UnitCompiler

namespace Intrinsic

theorem parameterName_eq (number index : Nat) :
    parameterName number index = "__p$" ++ number.repr ++ "$" ++ index.repr := rfl

theorem parameterName_marked (number index : Nat) : ¬ Unmarked (parameterName number index) := by
  simp [Unmarked, parameterName_eq]

theorem parameterName_injective (number : Nat) : Function.Injective (parameterName number) := by
  intro i j same
  rw [parameterName_eq, parameterName_eq, String.append_right_inj] at same
  have digits := congrArg (fun text => Nat.ofDigitChars 10 text.toList 0) same
  simpa only [Nat.toList_repr, Nat.ofDigitChars_ten_toDigits] using digits

end Intrinsic

namespace Instruction

def Plain (instruction : Instruction) : Prop :=
  ∀ name, ¬ Unmarked name → instruction.reads name = 0

theorem readsAll_eq (name : String) (code : List Instruction) :
    readsAll name code = (code.map (reads name)).sum := by
  induction code with
  | nil => rfl
  | cons first rest ih => simp [readsAll, ih]

theorem readsAll_plain {code : List Instruction} (plain : ∀ i ∈ code, i.Plain) {name : String}
    (marked : ¬ Unmarked name) : readsAll name code = 0 := by
  rw [readsAll_eq, List.sum_eq_zero_iff_forall_eq_nat]
  intro count member
  obtain ⟨i, inside, rfl⟩ := List.mem_map.mp member
  exact plain i inside name marked

theorem substituteAll_eq (values : Substitution) (code : List Instruction) :
    substituteAll values code = code.map (substitute values) := by
  induction code with
  | nil => rfl
  | cons first rest ih => simp [substituteAll, ih]

/-- An invocation is as plain as its arguments. -/
theorem invoke_plain {kind : InvokeKind} {owner : TypeRef} {name : String} {shape : Shape}
    {receiver : Option Instruction} {arguments : List Instruction}
    (silent : ∀ name, readsReceiver name receiver = 0) (plain : ∀ i ∈ arguments, i.Plain) :
    (invoke kind receiver owner name shape arguments).Plain := by
  intro other marked
  rw [reads, silent, readsAll_plain plain marked]

end Instruction

namespace Inlining

open Instruction

variable {arguments : List Instruction} {number : Nat}

/-- Among keys that differ, a value is found under its own, from either end. -/
theorem lookup_reverse_of_mem {β : Type} {list : List (String × β)}
    (distinct : (list.map Prod.fst).Nodup) {key : String} {value : β} (member : (key, value) ∈ list) :
    list.reverse.lookup key = some value := by
  induction list with
  | nil => contradiction
  | cons first rest ih =>
    rw [List.map_cons, List.nodup_cons] at distinct
    rw [List.reverse_cons, List.lookup_append]
    rcases List.mem_cons.mp member with rfl | later
    · have absent : rest.reverse.lookup key = none := by
        rw [List.lookup_eq_none_iff]
        intro entry inside
        rw [bne_iff_ne]
        rintro rfl
        exact distinct.1 (List.mem_map.mpr ⟨entry, List.mem_reverse.mp inside, rfl⟩)
      simp [absent]
    · simp [ih distinct.2 later]

/-- The variable that stands for an argument at its place, bound and read. -/
def binding (number : Nat) (slot : Instruction × Nat) : Instruction :=
  .declare (Intrinsic.parameterName number slot.2) slot.1.typeRef slot.1

def reading (number : Nat) (slot : Instruction × Nat) : Instruction :=
  .access (Intrinsic.parameterName number slot.2) slot.1.typeRef

/-- What a printing function does with values of known types. -/
def printing (i : Intrinsic) (types : List TypeRef) (values : List Instruction) : Instruction :=
  .invoke .virtual (some (.stream i.stream)) printStream i.streamMethod ⟨.void, types⟩ values

theorem expand_instantiate (i : Intrinsic) (number : Nat) (arguments : List Instruction) :
    expand arguments (i.instantiate number (arguments.map typeRef)) =
      arguments.zipIdx.map (binding number) ++
        [printing i (arguments.map typeRef) (arguments.zipIdx.map (reading number))] := by
  have bound : bindings (i.instantiate number (arguments.map typeRef)).parameters arguments =
      arguments.zipIdx.map (binding number) := by
    apply List.ext_getElem?
    intro place
    simp only [bindings, Intrinsic.instantiate, List.getElem?_zipWith, List.getElem?_mapIdx,
      List.getElem?_map, List.getElem?_zipIdx, Nat.zero_add]
    cases arguments[place]? <;> rfl
  have read : (arguments.map typeRef).mapIdx (fun index type =>
      Instruction.access (Intrinsic.parameterName number index) type) =
      arguments.zipIdx.map (reading number) := by
    apply List.ext_getElem?
    intro place
    simp only [List.getElem?_mapIdx, List.getElem?_map, List.getElem?_zipIdx, Nat.zero_add]
    cases arguments[place]? <;> rfl
  rw [expand, bound]
  simp only [Intrinsic.instantiate, read, printing]

/-- Every parameter is read once for each place it stands at. -/
theorem readsAll_reading (number place : Nat) (slots : List (Instruction × Nat)) :
    readsAll (Intrinsic.parameterName number place) (slots.map (reading number)) =
      (slots.map Prod.snd).count place := by
  induction slots with
  | nil => rfl
  | cons slot rest ih =>
    simp only [List.map_cons, readsAll, ih, reading, reads, List.count_cons, beq_iff_eq,
      (Intrinsic.parameterName_injective number).eq_iff]
    omega

/-- Plain arguments read no parameter, so each of those is read once in the expansion. -/
theorem readsAll_expansion (i : Intrinsic) (number : Nat) (plain : ∀ a ∈ arguments, a.Plain)
    {slot : Instruction × Nat} (member : slot ∈ arguments.zipIdx) :
    readsAll (Intrinsic.parameterName number slot.2)
      (arguments.zipIdx.map (binding number) ++
        [printing i (arguments.map typeRef) (arguments.zipIdx.map (reading number))]) = 1 := by
  have bound : ((arguments.zipIdx.map (binding number)).map
      (reads (Intrinsic.parameterName number slot.2))).sum = 0 := by
    rw [List.sum_eq_zero_iff_forall_eq_nat]
    intro count inside
    simp only [List.map_map, List.mem_map, Function.comp] at inside
    obtain ⟨other, there, rfl⟩ := inside
    exact plain other.1 (List.fst_mem_of_mem_zipIdx there) _ (Intrinsic.parameterName_marked _ _)
  have places : (arguments.zipIdx.map Prod.snd).count slot.2 = 1 := by
    refine List.count_eq_one_of_mem ?_ (List.mem_map_of_mem member)
    rw [List.zipIdx_map_snd]
    exact List.nodup_range'
  rw [readsAll_eq, List.map_append, List.sum_append, bound]
  simp only [List.map_cons, List.map_nil, List.sum_cons, List.sum_nil, printing, reads,
    readsReceiver, readsAll_reading, places, Nat.zero_add, Nat.add_zero]

theorem names_instantiate (i : Intrinsic) (number : Nat) (arguments : List Instruction) :
    (i.instantiate number (arguments.map typeRef)).parameters.map Parameter.name =
      arguments.zipIdx.map fun slot => Intrinsic.parameterName number slot.2 := by
  apply List.ext_getElem?
  intro place
  simp only [Intrinsic.instantiate, List.getElem?_map, List.getElem?_mapIdx, List.getElem?_zipIdx,
    Nat.zero_add]
  cases arguments[place]? <;> rfl

/-- If all bindings are propagated, what is left is the last instruction with the values in place. -/
theorem propagate_bindings {names : List String} {slots : List (Instruction × Nat)}
    {code : List Instruction} {last : Instruction}
    (whole : code = slots.map (binding number) ++ [last])
    (propagated : ∀ slot ∈ slots, propagated? names code (binding number slot) =
      some (Intrinsic.parameterName number slot.2, slot.1))
    (stays : propagated? names code last = none) :
    propagate names code = [last.substitute
      (slots.map fun slot => (Intrinsic.parameterName number slot.2, slot.1)).reverse] := by
  have values : code.filterMap (propagated? names code) =
      slots.map fun slot => (Intrinsic.parameterName number slot.2, slot.1) := by
    generalize propagated? names code = result at propagated stays
    rw [whole, List.filterMap_append, List.filterMap_map, List.filterMap_cons_none stays,
      List.filterMap_nil, List.append_nil, ← List.filterMap_eq_map]
    exact List.filterMap_congr propagated
  have kept : code.filter (fun i => (propagated? names code i).isNone) = [last] := by
    generalize propagated? names code = result at propagated stays
    rw [whole, List.filter_append, List.filter_eq_nil_iff.mpr, List.nil_append]
    · simp [stays]
    · intro i member
      obtain ⟨slot, there, rfl⟩ := List.mem_map.mp member
      simp [propagated slot there]
  rw [propagate, values, kept]
  rfl

theorem substitute_reading (number : Nat) (arguments : List Instruction) :
    substituteAll
        (arguments.zipIdx.map fun slot => (Intrinsic.parameterName number slot.2, slot.1)).reverse
        (arguments.zipIdx.map (reading number)) = arguments := by
  have distinct : ((arguments.zipIdx.map fun slot =>
      (Intrinsic.parameterName number slot.2, slot.1)).map Prod.fst).Nodup := by
    have places : (arguments.zipIdx.map Prod.snd).Nodup := by
      rw [List.zipIdx_map_snd]
      exact List.nodup_range'
    have names := places.map (Intrinsic.parameterName_injective number)
    simpa only [List.map_map, Function.comp_def] using names
  calc
    _ = arguments.zipIdx.map Prod.fst := by
      rw [substituteAll_eq, List.map_map]
      refine List.map_congr_left fun slot member => ?_
      have found := lookup_reverse_of_mem distinct (List.mem_map_of_mem member)
      simp only [Function.comp, reading, substitute, found, Option.getD_some]
    _ = arguments := List.zipIdx_map_fst _ _

/-- A printing function called with plain arguments prints them, whatever the instance. -/
theorem inline_instantiate (i : Intrinsic) (number : Nat) (plain : ∀ a ∈ arguments, a.Plain) :
    inline arguments (i.instantiate number (arguments.map typeRef)) =
      .ok [printing i (arguments.map typeRef) arguments] := by
  have length : arguments.length =
      (i.instantiate number (arguments.map typeRef)).parameters.length := by
    simp [Intrinsic.instantiate]
  rw [inline, if_pos length, names_instantiate, expand_instantiate, propagate_bindings rfl ?_ rfl]
  · simp only [printing, substitute, substituteReceiver, substitute_reading]
  · intro slot member
    have known := List.mem_map_of_mem (f := fun slot : Instruction × Nat =>
      Intrinsic.parameterName number slot.2) member
    simp only [propagated?, binding, readsAll_expansion i number plain member,
      List.contains_iff_mem.mpr known]
    rfl

end Inlining

end UnitCompiler
