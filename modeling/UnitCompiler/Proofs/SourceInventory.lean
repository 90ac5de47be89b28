import Mathlib.Data.List.Nodup
import UnitCompiler.Proofs.ImageNaming
import UnitCompiler.Proofs.PipelineOutcome

/-! What a source directory holds. Every file below it has a location of its own, and the units that are
found there are those of the files, each once, unless a directory cannot be listed. -/

namespace UnitCompiler

namespace Entry

inductive Proper : Entry → Prop where
  | file (bytes : List UInt8) : Proper (.file bytes)
  | directory {entries : List (String × Entry)} (apart : (entries.map Prod.fst).Nodup)
      (named : ∀ own ∈ entries, IsName own.1) (below : ∀ own ∈ entries, Proper own.2) :
      Proper (.directory entries)

theorem filesOf_eq (entries : List (String × Entry)) : filesOf entries =
    entries.flatMap fun own => own.2.files.map fun file => (own.1 :: file.1, file.2) := by
  induction entries with
  | nil => rfl
  | cons first rest ih =>
    rw [filesOf, ih]
    rfl

variable {e : Entry}

theorem Proper.named (proper : e.Proper) : ∀ file ∈ e.files, ∀ name ∈ file.1, IsName name := by
  induction proper with
  | file bytes =>
    intro file member
    rw [List.mem_singleton.mp member]
    simp
  | directory apart named below ih =>
    intro file member
    rw [files, filesOf_eq] at member
    obtain ⟨own, held, inside⟩ := List.mem_flatMap.mp member
    obtain ⟨lower, there, rfl⟩ := List.mem_map.mp inside
    rw [List.forall_mem_cons]
    exact ⟨named own held, ih own held lower there⟩

/-- No two files are at one location. -/
theorem Proper.locations (proper : e.Proper) : (e.files.map Prod.fst).Nodup := by
  induction proper with
  | file bytes => exact List.nodup_singleton _
  | @directory entries apart named below ih =>
    rw [files, filesOf_eq, List.map_flatMap, List.nodup_flatMap]
    constructor
    · intro own held
      rw [List.map_map]
      have lower := (ih own held).map (List.cons_injective (a := own.1))
      rwa [List.map_map] at lower
    · rw [List.Nodup, List.pairwise_map] at apart
      refine apart.imp fun different location first second => different ?_
      simp only [List.map_map] at first second
      obtain ⟨_, _, rfl⟩ := List.mem_map.mp first
      obtain ⟨_, _, same⟩ := List.mem_map.mp second
      exact (List.cons.inj same).1.symm

end Entry

namespace Input

theorem accepted_sublist (policy : InputPolicy) (input : List Input) :
    (accepted policy input).Sublist (input.filterMap unit?) := by
  induction input with
  | nil => exact .slnil
  | cons first rest ih =>
    cases first with
    | unit source => exact ih.cons_cons source
    | failure cause =>
      cases policy with
      | keepGoing => exact ih
      | failFast => exact List.nil_sublist _

theorem unit?_ne_none {policy : InputPolicy} {inputs : List Input} (whole : failures policy inputs = []) :
    ∀ input ∈ inputs, input.unit? ≠ none := by
  induction inputs with
  | nil => simp
  | cons first rest ih =>
    cases first with
    | unit source => exact List.forall_mem_cons.mpr ⟨Option.some_ne_none source, ih whole⟩
    | failure cause => cases whole

/-- The units of an input are those at some of the locations. Unless something fails, it is all of them. -/
structure Lists (inputs : List Input) (all found : List (Location × SourceUnit)) : Prop where
  units : inputs.filterMap unit? = found.map Prod.snd
  part : found.Sublist all
  whole : (∀ input ∈ inputs, input.unit? ≠ none) → found = all

theorem Lists.append {first second : List Input} {all all' found found' : List (Location × SourceUnit)}
    (lists : Lists first all found) (lists' : Lists second all' found') :
    Lists (first ++ second) (all ++ all') (found ++ found') where
  units := by rw [List.filterMap_append, lists.units, lists'.units, List.map_append]
  part := lists.part.append lists'.part
  whole plain := by
    rw [List.forall_mem_append] at plain
    rw [lists.whole plain.1, lists'.whole plain.2]

end Input

namespace Sources

def unitsOf (root : String) (names : Location) (files : List (Location × List UInt8)) :
    List (Location × SourceUnit) :=
  files.filterMap fun file =>
    let names := names ++ file.1
    (unit? names (content (names.foldl Path.join root) file.2)).map (names, ·)

/-- The source files in an entry and their units. -/
def inventory (root : String) (e : Entry) : List (Location × SourceUnit) := unitsOf root [] e.files

theorem unitsOf_append (root : String) (names : Location) (first second : List (Location × List UInt8)) :
    unitsOf root names (first ++ second) = unitsOf root names first ++ unitsOf root names second :=
  List.filterMap_append

theorem unitsOf_map (root : String) (names : Location) (name : String)
    (files : List (Location × List UInt8)) :
    unitsOf root names (files.map fun file => (name :: file.1, file.2)) =
      unitsOf root (names ++ [name]) files := by
  simp [unitsOf, List.filterMap_map, Function.comp_def]

mutual

theorem walk_lists (root : String) (names : Location) : (e : Entry) →
    ∃ found, Input.Lists (walk root (names.foldl Path.join root) names e) (unitsOf root names e.files) found
  | .file bytes => by
    refine ⟨_, ?_, .refl _, fun _ => rfl⟩
    rw [walk, unitsOf, Entry.files, List.filterMap_cons, List.filterMap_nil]
    simp only [List.append_nil]
    cases unit? names (content (names.foldl Path.join root) bytes) <;> rfl
  | .directory entries => by
    rw [walk]
    cases FileTree.checkPath (names.foldl Path.join root) with
    | ok => exact walkAll_lists root names entries
    | error e => exact ⟨[], rfl, List.nil_sublist _, fun plain => absurd rfl (plain _ List.mem_cons_self)⟩

theorem walkAll_lists (root : String) (names : Location) : (entries : List (String × Entry)) →
    ∃ found, Input.Lists (walkAll root (names.foldl Path.join root) names entries)
      (unitsOf root names (Entry.filesOf entries)) found
  | [] => ⟨[], rfl, .refl _, fun _ => rfl⟩
  | (name, e) :: rest => by
    obtain ⟨found, lists⟩ := walk_lists root (names ++ [name]) e
    obtain ⟨others, more⟩ := walkAll_lists root names rest
    rw [List.foldl_concat] at lists
    refine ⟨found ++ others, ?_⟩
    rw [walkAll, Entry.filesOf, unitsOf_append, unitsOf_map]
    exact lists.append more

end

/-- The units that are found below a root are those of its files. -/
theorem discover_lists {t : FileTree} {root : String} {place : Location} {e : Entry}
    (located : t.find root = .ok (place, e)) :
    ∃ found, Input.Lists (discover t root) (inventory root e) found := by
  unfold discover
  rw [located]
  cases e with
  | directory entries => exact walkAll_lists root [] entries
  | file bytes =>
    -- The root itself is no file below it.
    refine ⟨[], ?_, .refl _, fun _ => rfl⟩
    dsimp only
    split <;> rfl

theorem mem_inventory {root : String} {e : Entry} {location : Location} {u : SourceUnit} :
    (location, u) ∈ inventory root e ↔ ∃ bytes, (location, bytes) ∈ e.files ∧
      unit? location (content (location.foldl Path.join root) bytes) = some u := by
  simp [inventory, unitsOf]

/-- No two units are at one location. -/
theorem inventory_locations {e : Entry} (proper : e.Proper) (root : String) :
    ((inventory root e).map Prod.fst).Nodup := by
  refine proper.locations.sublist ?_
  unfold inventory unitsOf
  induction e.files with
  | nil => exact .slnil
  | cons file rest ih =>
    rw [List.filterMap_cons]
    split
    · exact ih.cons file.1
    · next found unit =>
      obtain ⟨u, -, rfl⟩ := Option.map_eq_some_iff.mp unit
      exact ih.cons_cons file.1

end Sources

end UnitCompiler
