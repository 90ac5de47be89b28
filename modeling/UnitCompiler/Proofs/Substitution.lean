import Mathlib.Algebra.BigOperators.Group.List.Basic
import UnitCompiler.Proofs.ArgumentCapture

/-! Reads under substitution. A read of a replaced variable turns into the reads of its value, and all other
reads stay. What stands inside an instruction stays at its place, with a value in the place of a replaced
variable, and nothing inside the values is replaced again. -/

namespace UnitCompiler

namespace Instruction

variable {values values' : Substitution}

/-! ## Values under different names -/

theorem lookup_eq_some_iff_mem (distinct : (values.map Prod.fst).Nodup) {name : String}
    {value : Instruction} : values.lookup name = some value ↔ (name, value) ∈ values := by
  constructor
  · intro found
    obtain ⟨before, behind, split, -⟩ := List.lookup_eq_some_iff.mp found
    simp [split]
  · intro member
    rw [← Inlining.lookup_reverse distinct]
    exact Inlining.lookup_reverse_of_mem distinct member

theorem lookup_eq_none_iff_notMem {name : String} :
    values.lookup name = none ↔ name ∉ values.map Prod.fst := by
  simp only [List.lookup_eq_none_iff, bne_iff_ne, List.mem_map, not_exists, not_and]
  exact forall₂_congr fun entry _ => ⟨Ne.symm, Ne.symm⟩

/-- The order of the values makes no difference. -/
theorem lookup_perm (distinct : (values.map Prod.fst).Nodup) (reordered : values'.Perm values)
    (name : String) : values'.lookup name = values.lookup name := by
  have distinct' : (values'.map Prod.fst).Nodup := (reordered.map Prod.fst).nodup_iff.mpr distinct
  apply Option.ext
  intro value
  rw [lookup_eq_some_iff_mem distinct', lookup_eq_some_iff_mem distinct, reordered.mem_iff]

/-! ## Reads -/

/-- How often a variable is read once values are in place: as often as before, unless it is replaced, and
for each value as often as the value reads it at every place where it is put. -/
def redirected (values : Substitution) (reads : String → Nat) (x : String) : Nat :=
  (if x ∈ values.map Prod.fst then 0 else reads x) +
    (values.map fun entry => reads entry.1 * entry.2.reads x).sum

theorem redirected_zero (values : Substitution) (x : String) : redirected values (fun _ => 0) x = 0 := by
  simp [redirected]

theorem redirected_add (values : Substitution) (f g : String → Nat) (x : String) :
    redirected values (fun y => f y + g y) x = redirected values f x + redirected values g x := by
  have sums : (values.map fun entry => (f entry.1 + g entry.1) * entry.2.reads x).sum =
      (values.map fun entry => f entry.1 * entry.2.reads x).sum +
        (values.map fun entry => g entry.1 * entry.2.reads x).sum := by
    simp only [Nat.add_mul]
    exact List.sum_map_add
  rw [redirected, redirected, redirected, sums]
  split <;> omega

/-- Only the value of the variable that is read counts. -/
theorem sum_reads_access (distinct : (values.map Prod.fst).Nodup) (name : String) (type : TypeRef)
    (x : String) : (values.map fun entry => (access name type).reads entry.1 * entry.2.reads x).sum =
      ((values.lookup name).map (reads x)).getD 0 := by
  induction values with
  | nil => rfl
  | cons entry rest ih =>
    rw [List.map_cons, List.nodup_cons] at distinct
    rw [List.map_cons, List.sum_cons, ih distinct.2, List.lookup_cons, reads]
    by_cases same : name = entry.1
    · subst same
      rw [lookup_eq_none_iff_notMem.mpr distinct.1, beq_self_eq_true]
      simp
    · rw [beq_eq_false_iff_ne.mpr same, if_neg same, Nat.zero_mul, Nat.zero_add]

theorem redirected_access (distinct : (values.map Prod.fst).Nodup) (name : String) (type : TypeRef)
    (x : String) : redirected values (fun y => (access name type).reads y) x =
      ((access name type).substitute values).reads x := by
  rw [redirected, sum_reads_access distinct, substitute]
  cases found : values.lookup name with
  | none =>
    have kept := lookup_eq_none_iff_notMem.mp found
    by_cases same : name = x
    · subst same
      simp [kept]
    · simp [reads, same]
  | some value =>
    have replaced : name ∈ values.map Prod.fst :=
      List.mem_map_of_mem ((lookup_eq_some_iff_mem distinct).mp found)
    by_cases same : name = x
    · subst same
      simp [replaced]
    · simp [reads, same]

mutual

theorem reads_substitute (distinct : (values.map Prod.fst).Nodup) (x : String) : (i : Instruction) →
    (i.substitute values).reads x = redirected values (fun y => i.reads y) x
  | .literal _ | .stream _ => (redirected_zero values x).symm
  | .access name type => (redirected_access distinct name type x).symm
  | .declare name type value => reads_substitute distinct x value
  | .invoke kind receiver owner name shape arguments => by
    simp only [substitute, reads]
    rw [redirected_add, readsReceiver_substitute distinct x receiver, readsAll_substitute distinct x arguments]

theorem readsReceiver_substitute (distinct : (values.map Prod.fst).Nodup) (x : String) :
    (receiver : Option Instruction) → readsReceiver x (substituteReceiver values receiver) =
      redirected values (fun y => readsReceiver y receiver) x
  | none => (redirected_zero values x).symm
  | some receiver => reads_substitute distinct x receiver

theorem readsAll_substitute (distinct : (values.map Prod.fst).Nodup) (x : String) :
    (code : List Instruction) → readsAll x (substituteAll values code) =
      redirected values (fun y => readsAll y code) x
  | [] => (redirected_zero values x).symm
  | i :: rest => by
    simp only [substituteAll, readsAll]
    rw [redirected_add, reads_substitute distinct x i, readsAll_substitute distinct x rest]

end

/-! ## Places -/

/-- The instructions right inside an instruction, in the order in which they are evaluated. -/
def children : Instruction → List Instruction
  | .declare _ _ value => [value]
  | .invoke _ receiver _ _ _ arguments => receiver.toList ++ arguments
  | .literal _ | .access .. | .stream _ => []

/-- What stands inside an instruction, by the number among the children at each step on the way there. -/
def at? : Instruction → List Nat → Option Instruction
  | i, [] => some i
  | i, number :: way => i.children[number]?.bind fun child => child.at? way

theorem children_substitute {i : Instruction} (whole : i.accessed = none) (values : Substitution) :
    (i.substitute values).children = i.children.map (substitute values) := by
  cases i with
  | literal | stream => rfl
  | access name type => cases whole
  | declare name type value => rfl
  | invoke kind receiver owner name shape arguments =>
    rw [substitute, children, children, substituteAll_eq, List.map_append]
    cases receiver <;> rfl

/-- Everything stays where it is. -/
theorem at?_substitute {i part : Instruction} {way : List Nat} (found : i.at? way = some part)
    (values : Substitution) : (i.substitute values).at? way = some (part.substitute values) := by
  induction way generalizing i with
  | nil =>
    cases found
    rfl
  | cons number way ih =>
    obtain ⟨child, inside, below⟩ := Option.bind_eq_some_iff.mp found
    have whole : i.accessed = none := by
      cases i with
      | access name type => cases inside
      | literal | declare | invoke | stream => rfl
    rw [at?, children_substitute whole, List.getElem?_map, inside]
    exact ih below

theorem parts_child {i child : Instruction} (member : child ∈ i.children) : child.parts ⊆ i.parts := by
  cases i with
  | literal | access | stream => cases member
  | declare name type value =>
    rw [List.mem_singleton.mp member]
    exact List.subset_cons_self _ _
  | invoke kind receiver owner name shape arguments =>
    refine List.Subset.trans ?_ (List.subset_cons_self _ _)
    rcases List.mem_append.mp member with first | later
    · rw [Option.mem_toList.mp first]
      exact List.subset_append_left _ _
    · rw [partsAll_eq]
      exact fun part inside => List.mem_append_right _ (List.mem_flatMap.mpr ⟨child, later, inside⟩)

theorem mem_parts_self (i : Instruction) : i ∈ i.parts := by
  cases i <;> exact List.mem_cons_self

theorem mem_parts_of_at? {i part : Instruction} {way : List Nat} (found : i.at? way = some part) :
    part ∈ i.parts := by
  induction way generalizing i with
  | nil =>
    cases found
    exact mem_parts_self part
  | cons number way ih =>
    obtain ⟨child, inside, below⟩ := Option.bind_eq_some_iff.mp found
    exact parts_child (List.mem_of_getElem? inside) (ih below)

/-! ## Types -/

/-- Every variable that is replaced inside an instruction has the type of its value. -/
def Fitting (values : Substitution) (i : Instruction) : Prop :=
  ∀ part ∈ i.parts, ∀ entry ∈ values, part.accessed = some entry.1 → entry.2.typeRef = part.typeRef

instance (values : Substitution) (i : Instruction) : Decidable (Fitting values i) :=
  inferInstanceAs (Decidable (∀ part ∈ i.parts, ∀ entry ∈ values,
    part.accessed = some entry.1 → entry.2.typeRef = part.typeRef))

theorem typeRef_substitute (distinct : (values.map Prod.fst).Nodup) {i part : Instruction}
    (fitting : Fitting values i) (inside : part ∈ i.parts) :
    (part.substitute values).typeRef = part.typeRef := by
  cases part with
  | literal | declare | invoke | stream => rfl
  | access name type =>
    rw [substitute]
    cases found : values.lookup name with
    | none => rfl
    | some value => exact fitting _ inside _ ((lookup_eq_some_iff_mem distinct).mp found) rfl

/-- Substitution is one pass that replaces all variables at once. A variable is read as often as before,
unless it is replaced, and as often as the values read it that are put in place. The order of the values
makes no difference, and where no replaced variable is read nothing changes. Everything inside the instruction
stays where it is, with a value itself in the place of a replaced variable, and keeps its type if the values
have the types of the variables. -/
theorem substitute_in_one_pass (values : Substitution) (distinct : (values.map Prod.fst).Nodup)
    (i : Instruction) :
    (∀ x, (i.substitute values).reads x = (if x ∈ values.map Prod.fst then 0 else i.reads x) +
      (values.map fun entry => i.reads entry.1 * entry.2.reads x).sum) ∧
    (∀ values', values'.Perm values → i.substitute values' = i.substitute values) ∧
    ((∀ entry ∈ values, i.reads entry.1 = 0) → i.substitute values = i) ∧
    (∀ way part, i.at? way = some part → (i.substitute values).at? way = some (part.substitute values) ∧
      ∀ entry ∈ values, part.accessed = some entry.1 → (i.substitute values).at? way = some entry.2) ∧
    (Fitting values i → (i.substitute values).typeRef = i.typeRef ∧
      ∀ way part, i.at? way = some part →
        ((i.substitute values).at? way).map typeRef = some part.typeRef) := by
  refine ⟨fun x => reads_substitute distinct x i, fun values' reordered => ?_, fun unread => ?_,
    fun way part found => ⟨at?_substitute found values, fun entry member read => ?_⟩, fun fitting => ?_⟩
  · exact substitute_congr (lookup_perm distinct reordered) i
  · refine substitute_of_spares i fun name value found => ?_
    exact unread (name, value) ((lookup_eq_some_iff_mem distinct).mp found)
  · rw [at?_substitute found]
    cases part with
    | literal | declare | invoke | stream => cases read
    | access name type =>
      cases read
      rw [substitute, (lookup_eq_some_iff_mem distinct).mpr member, Option.getD_some]
  · refine ⟨typeRef_substitute distinct fitting (mem_parts_self i), fun way part found => ?_⟩
    rw [at?_substitute found, Option.map_some, typeRef_substitute distinct fitting (mem_parts_of_at? found)]

/-- Values that read each other's variables, and one that is not replaced. -/
def crossingValues : Substitution :=
  [("a", .invoke .static none .string "g" ⟨.string, [.string, .int, .string]⟩
      [.access "b" .string, .access "x" .int, .access "a" .string]),
    ("b", .access "a" .string)]

/-- The first variable is read as receiver and argument, the second one inside a declaration. -/
def crossingCall : Instruction :=
  .invoke .virtual (some (.access "a" .string)) .string "h" ⟨.void, [.string, .string, .int]⟩
    [.access "a" .string, .declare "c" .string (.access "b" .string), .access "x" .int]

theorem crossing_in_one_pass : (crossingValues.map Prod.fst).Nodup ∧ Fitting crossingValues crossingCall ∧
    ["a", "b", "x"].map (fun x => (crossingCall.substitute crossingValues).reads x) = [3, 2, 3] ∧
    crossingCall.substitute crossingValues.reverse = crossingCall.substitute crossingValues ∧
    (crossingCall.substitute crossingValues).at? [2, 0] = some (.access "a" .string) ∧
    ((crossingCall.substitute crossingValues).at? [0]).map typeRef = some .string ∧
    (access "x" .int).substitute crossingValues = access "x" .int := by
  have distinct : (crossingValues.map Prod.fst).Nodup := by decide
  have fitting : Fitting crossingValues crossingCall := by decide
  obtain ⟨reads, order, -, places, types⟩ := substitute_in_one_pass crossingValues distinct crossingCall
  obtain ⟨-, -, unread, -, -⟩ := substitute_in_one_pass crossingValues distinct (.access "x" .int)
  refine ⟨distinct, fitting, ?_, order _ (List.reverse_perm _), ?_, ?_, unread (by decide)⟩
  · simp only [reads]
    decide
  · exact (places [2, 0] (.access "b" .string) rfl).2 ("b", .access "a" .string) (by decide) rfl
  · exact (types fitting).2 [0] (.access "a" .string) rfl

end Instruction

end UnitCompiler
