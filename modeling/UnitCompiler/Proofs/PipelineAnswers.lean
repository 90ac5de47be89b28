import Mathlib.Data.List.Nodup
import UnitCompiler.Proofs.PipelineOutcome
import UnitCompiler.Proofs.PipelineProtocol

/-! What the tables of a pipeline answer. Units with different names register under different
owners, so under one owner the registrations come in the order of one unit, whatever happens in
between. A settled lookup holds what it would find if all units had registered in the order of the
input. -/

namespace UnitCompiler

variable {α : Type}

namespace Log

theorem under_of_forall_eq {log : Log α} {owner : String} (own : ∀ entry ∈ log, entry.1 = owner) :
    log.under owner = log.map Prod.snd := by
  rw [under, List.filter_eq_self.mpr]
  intro entry member
  simp [own entry member]

theorem under_of_forall_ne {log : Log α} {owner : String} (others : ∀ entry ∈ log, entry.1 ≠ owner) :
    log.under owner = [] := by
  rw [under, List.filter_eq_nil_iff.mpr, List.map_nil]
  intro entry member
  simp [others entry member]

/-- Of what units with different names register, one owner has what the unit of that name does. -/
theorem under_flatMap {registers : SourceUnit → Log α}
    (owned : ∀ unit, ∀ entry ∈ registers unit, entry.1 = unit.qualifiedName)
    {units : List SourceUnit} (distinct : (units.map SourceUnit.qualifiedName).Nodup)
    {unit : SourceUnit} (member : unit ∈ units) :
    under (units.flatMap registers) unit.qualifiedName = (registers unit).map Prod.snd := by
  induction units with
  | nil => contradiction
  | cons first rest ih =>
    rw [List.map_cons, List.nodup_cons] at distinct
    rw [List.flatMap_cons, under_append]
    rcases List.mem_cons.mp member with rfl | later
    · rw [under_of_forall_eq (owned unit), under_of_forall_ne, List.append_nil]
      intro entry inside
      obtain ⟨other, there, registered⟩ := List.mem_flatMap.mp inside
      rw [owned other entry registered]
      intro same
      rw [← same] at distinct
      exact distinct.1 (List.mem_map_of_mem there)
    · rw [under_of_forall_ne, List.nil_append, ih distinct.2 later]
      intro entry inside
      rw [owned first entry inside]
      intro same
      rw [same] at distinct
      exact distinct.1 (List.mem_map_of_mem later)

theorem first?_of_initial [Named α] {log whole : Log α} {owner : String} {signature : Signature α}
    (start : log.under owner <+: whole.under owner) {declaration : α}
    (found : log.first? owner signature = some declaration) :
    whole.first? owner signature = some declaration := by
  obtain ⟨rest, same⟩ := start
  rw [first?, ← same, List.find?_append, ← first?, found]
  rfl

end Log

/-- If one caller registers under an owner, and no other does, its registrations are the owner's. -/
theorem History.under_eq {history : History α} {caller : Nat} {owner : String}
    (only : ∀ entry ∈ history, entry.2.1 = owner ↔ entry.1 = caller) :
    Log.under (history.map Prod.snd) owner = (history.made caller).map Prod.snd := by
  have same : history.filter (fun entry => entry.2.1 == owner) =
      history.filter (fun entry => entry.1 == caller) := by
    refine List.filter_congr fun entry member => ?_
    rw [Bool.eq_iff_iff, beq_iff_eq, beq_iff_eq]
    exact only entry member
  rw [Log.under, History.made, List.filter_map, ← same]
  rfl

theorem History.mem_made {history : History α} {entry : Nat × String × α} (member : entry ∈ history) :
    entry.2 ∈ history.made entry.1 := by
  refine List.mem_map_of_mem (List.mem_filter.mpr ⟨member, ?_⟩)
  simp

namespace Plan

def Owned (plan : Plan α) : Prop :=
  ∀ o n entry, plan o n = some entry → entry.1 = o.owner

theorem Owned.ofUnit {plan : Plan α} (owned : plan.Owned) (grammar : Grammar) (unit : SourceUnit) :
    ∀ entry ∈ plan.ofUnit grammar unit, entry.1 = unit.qualifiedName := by
  intro entry member
  unfold Plan.ofUnit at member
  split at member
  · next o read =>
    obtain ⟨n, -, planned⟩ := List.mem_flatMap.mp member
    rw [owned o n entry (Option.mem_toList.mp planned), Outline.owner, Outline.read_unit read]
  · contradiction

theorem entries_initial (plan : Plan α) (o : Outline) {count size : Nat} (bound : count ≤ size) :
    plan.entries o count <+: plan.entries o size := by
  obtain ⟨more, rfl⟩ := Nat.exists_eq_add_of_le bound
  rw [entries, entries, List.range_add, List.flatMap_append]
  exact List.prefix_append _ _

end Plan

theorem Outline.typePlan_owned : typePlan.Owned := by
  intro o n entry planned
  cases n with
  | zero => rw [← Option.some.inj planned]
  | succ n => simp [typePlan] at planned

theorem Outline.methodPlan_owned : methodPlan.Owned := by
  intro o n entry planned
  cases n with
  | zero => simp [methodPlan] at planned
  | succ n =>
    obtain ⟨declaration, -, same⟩ := Option.map_eq_some_iff.mp planned
    rw [← same]

variable [Named α]

namespace ParseTask

variable {toolchain : Toolchain} {task : ParseTask} {plan : Plan α} {t : Table α} {caller : Nat}
  {made : Log α}

/-- A task has registered some of what its unit registers, in order. -/
theorem Faithful.made_initial (faithful : task.Faithful toolchain)
    (standing : t.Standing caller made (task.confirmed plan toolchain.grammar)
      (task.phase.pending plan)) :
    made <+: plan.ofUnit toolchain.grammar task.unit := by
  unfold ParseTask.Faithful at faithful
  unfold ParseTask.confirmed at standing
  cases phase : task.phase with
  | queued | reading =>
    rw [phase] at standing
    cases standing with
    | idle calls answers same => simp [same]
  | registering r =>
    rw [phase] at standing faithful
    obtain ⟨read, valid⟩ := faithful
    have whole : plan.ofUnit toolchain.grammar task.unit = plan.entries r.outline r.outline.size := by
      simp [Plan.ofUnit, read]
    rw [whole]
    dsimp only [ParsePhase.pending] at standing
    generalize asked : r.pending plan = posted at standing
    cases standing with
    | idle calls answers same | asked request calls answers same =>
      rw [same]
      exact plan.entries_initial r.outline valid.1
    | answered request reply calls answers same =>
      unfold Registering.pending at asked
      split at asked
      · next waiting =>
        obtain ⟨⟨owner, declaration⟩, planned, rfl⟩ := Option.map_eq_some_iff.mp asked
        have next : made = plan.entries r.outline (r.confirmed + 1) := by
          rw [same, Plan.entries_succ, planned]
          rfl
        rw [next]
        exact plan.entries_initial r.outline (valid.2 waiting)
      · contradiction
  | resolving | reporting | sending | finished =>
    rw [phase] at standing
    cases standing with
    | idle calls answers same => simp [same]

/-- A task that is declared has registered all that its unit registers. -/
theorem made_eq (declared : task.phase.isDeclared = true)
    (standing : t.Standing caller made (task.confirmed plan toolchain.grammar)
      (task.phase.pending plan)) :
    made = plan.ofUnit toolchain.grammar task.unit := by
  rw [ParsePhase.pending_of_declared plan declared,
    confirmed_of_declared plan toolchain.grammar declared] at standing
  cases standing with
  | idle calls answers same => exact same

end ParseTask

namespace Pipeline

variable {plan : Plan α} {ending parse : ParseStage} {toolchain : Toolchain}
  {tasks : List ParseTask} {t : Table α}

/-- Every registration was made by a task. -/
theorem Desk.origin (desk : Desk plan ending toolchain.grammar parse tasks t) :
    ∃ history : History α, history.map Prod.snd = t.accepted ∧
      (∀ index task, tasks[index]? = some task →
        t.Standing (taskCaller index) (history.made (taskCaller index))
          (task.confirmed plan toolchain.grammar) (task.phase.pending plan)) ∧
      ∀ entry ∈ history, ∃ index task, tasks[index]? = some task ∧ entry.1 = taskCaller index := by
  obtain ⟨history, whole, standings⟩ := desk.serves
  refine ⟨history, whole, fun index task there => ?_, fun entry member => ?_⟩
  · have standing := standings (taskCaller index)
    rwa [agenda, confirmations, shares_task _ _ _ there, shares_task _ _ _ there] at standing
  · have made := History.mem_made member
    have standing := standings entry.1
    cases caller : entry.1 with
    | zero =>
      rw [caller] at standing made
      simp only [agenda, confirmations, shares] at standing
      split at standing
      · cases standing with
        | asked request calls answers same | answered request reply calls answers same =>
          simp [same, Request.entries] at made
      · cases standing with
        | idle calls answers same => simp [same] at made
    | succ index =>
      cases there : tasks[index]? with
      | some task => exact ⟨index, task, there, rfl⟩
      | none =>
        rw [caller] at standing made
        simp only [agenda, confirmations, shares, there, Option.elim_none] at standing
        cases standing with
        | idle calls answers same => simp [same] at made

theorem names_nodup {units rest : List SourceUnit} (whole : units = tasks.map ParseTask.unit ++ rest)
    (distinct : (units.map SourceUnit.qualifiedName).Nodup) :
    ((tasks.map ParseTask.unit).map SourceUnit.qualifiedName).Nodup := by
  rw [whole, List.map_append] at distinct
  exact distinct.of_append_left

/-- Tasks are told apart by the names of their units. -/
theorem index_unique (names : ((tasks.map ParseTask.unit).map SourceUnit.qualifiedName).Nodup)
    {index other : Nat} {task task' : ParseTask} (there : tasks[index]? = some task)
    (there' : tasks[other]? = some task')
    (same : task.unit.qualifiedName = task'.unit.qualifiedName) : index = other := by
  obtain ⟨bound, -⟩ := List.getElem?_eq_some_iff.mp there
  refine (List.getElem?_inj (by simpa using bound) names).mp ?_
  simp only [List.getElem?_map, there, there', Option.map_some, same]

/-- Under one owner, the registrations accepted so far are the first ones of those that all units
make, and all of them once every unit is declared. -/
theorem Desk.under_initial (desk : Desk plan ending toolchain.grammar parse tasks t)
    (owned : plan.Owned) (faithful : ∀ task ∈ tasks, task.Faithful toolchain)
    {units rest : List SourceUnit} (whole : units = tasks.map ParseTask.unit ++ rest)
    (distinct : (units.map SourceUnit.qualifiedName).Nodup) (owner : String) :
    t.accepted.under owner <+: Log.under (units.flatMap (plan.ofUnit toolchain.grammar)) owner ∧
      (rest = [] → (∀ task ∈ tasks, task.phase.isDeclared = true) →
        t.accepted.under owner =
          Log.under (units.flatMap (plan.ofUnit toolchain.grammar)) owner) := by
  obtain ⟨history, accepted, standings, origin⟩ := desk.origin
  have made_initial (index : Nat) (task : ParseTask) (there : tasks[index]? = some task) :
      history.made (taskCaller index) <+: plan.ofUnit toolchain.grammar task.unit :=
    (faithful task (List.mem_of_getElem? there)).made_initial (standings index task there)
  have named (entry : Nat × String × α) (member : entry ∈ history) :
      ∃ index task, tasks[index]? = some task ∧ entry.1 = taskCaller index ∧
        entry.2.1 = task.unit.qualifiedName := by
    obtain ⟨index, task, there, caller⟩ := origin entry member
    have made := History.mem_made member
    rw [caller] at made
    exact ⟨index, task, there, caller, owned.ofUnit _ _ _ ((made_initial index task there).mem made)⟩
  have names := names_nodup whole distinct
  by_cases known : ∃ (index : Nat) (task : ParseTask),
      tasks[index]? = some task ∧ task.unit.qualifiedName = owner
  · obtain ⟨index, task, there, name⟩ := known
    have own : t.accepted.under owner = (history.made (taskCaller index)).map Prod.snd := by
      rw [← accepted]
      refine History.under_eq fun entry inside => ?_
      obtain ⟨other, task', there', caller, name'⟩ := named entry inside
      rw [caller, name', ← name]
      constructor
      · intro same
        rw [index_unique names there' there same]
      · intro same
        obtain rfl : other = index := Nat.succ.inj same
        rw [there, Option.some.injEq] at there'
        rw [there']
    have member : task.unit ∈ units := by
      rw [whole]
      exact List.mem_append_left _ (List.mem_map_of_mem (List.mem_of_getElem? there))
    have all := Log.under_flatMap (owned.ofUnit toolchain.grammar) distinct member
    rw [name] at all
    rw [own, all]
    refine ⟨(made_initial index task there).map _, fun _ declared => ?_⟩
    rw [ParseTask.made_eq (declared task (List.mem_of_getElem? there)) (standings index task there)]
  · have none : t.accepted.under owner = [] := by
      rw [← accepted]
      refine Log.under_of_forall_ne fun pair inside => ?_
      obtain ⟨entry, member, rfl⟩ := List.mem_map.mp inside
      obtain ⟨index, task, there, -, name⟩ := named entry member
      exact fun same => known ⟨index, task, there, name.symm.trans same⟩
    rw [none]
    refine ⟨by simp, fun last _ => (Log.under_of_forall_ne fun entry inside => ?_).symm⟩
    obtain ⟨unit, member, registered⟩ := List.mem_flatMap.mp inside
    rw [whole, last, List.append_nil] at member
    obtain ⟨task, there, rfl⟩ := List.mem_map.mp member
    obtain ⟨index, place⟩ := List.mem_iff_getElem?.mp there
    rw [owned.ofUnit _ _ _ registered]
    exact fun same => known ⟨index, task, place, same⟩

/-- What a settled lookup holds is what it finds among the registrations of all units. -/
theorem Desk.settled (desk : Desk plan ending toolchain.grammar parse tasks t)
    (owned : plan.Owned) (faithful : ∀ task ∈ tasks, task.Faithful toolchain)
    {units rest : List SourceUnit} (whole : units = tasks.map ParseTask.unit ++ rest)
    (distinct : (units.map SourceUnit.qualifiedName).Nodup)
    (last : t.registry.ended = true → rest = [] ∧ ∀ task ∈ tasks, task.phase.isDeclared = true)
    {index : Nat} {l : Lookup α} (there : t.lookups[index]? = some l) {found : Option α}
    (phase : l.phase = .settled found) :
    found = Log.first? (units.flatMap (plan.ofUnit toolchain.grammar)) l.owner l.signature := by
  obtain ⟨start, all⟩ := desk.under_initial owned faithful whole distinct l.owner
  have informed := desk.sound.informed index l there
  rw [phase] at informed
  cases found with
  | some declaration => exact (Log.first?_of_initial start informed).symm
  | none =>
    obtain ⟨announced, missing⟩ := informed
    obtain ⟨exhausted, declared⟩ := last (desk.sound.ended.mpr announced)
    rw [Log.first?, ← all exhausted declared]
    exact missing.symm

end Pipeline

end UnitCompiler
