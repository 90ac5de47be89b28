import Mathlib.Data.List.Perm.Subperm
import UnitCompiler.Proofs.ImageReadable
import UnitCompiler.Proofs.PipelineConservation
import UnitCompiler.Proofs.SourceInventory

/-! What a build writes. The units that it compiles are those of files at different locations, and each has
one image. Images are at one place exactly if their types have one name, and then the last one stays. -/

namespace UnitCompiler

/-! ## Units that are received -/

/-- What is chosen from a list, and passes a test, is among all that pass the test. -/
theorem filterMap_sublist {α β : Type} {list : List α} {f : α → Option β} (chosen : α → Bool)
    (keep : β → Bool) (result : α → β)
    (each : ∀ x ∈ list, f x = if chosen x && keep (result x) then some (result x) else none) :
    (list.filterMap f).Sublist ((list.map result).filter keep) := by
  rw [filterMap_keep (fun x => chosen x && keep (result x)) result each, List.filter_map, ← List.filter_filter]
  exact List.filter_sublist.map result

namespace Pipeline

variable {settings : Settings} {input : List Input} {p q : Pipeline}

/-- Only accepted units are received, and none of them twice. -/
theorem Books.received_subperm (books : Books settings input p) :
    (p.received.map fun c => c.declared.unit).Subperm
      ((Input.accepted settings.inputErrors input).filter SourceUnit.compiles) := by
  have jobs : (p.jobs.filterMap Job.produced?).Sublist
      ((p.jobs.map Job.unit).filter fun unit => Image.isValidName unit.qualifiedName) :=
    filterMap_sublist (·.phase.isFinished) _ _ fun job _ => by rw [Job.produced?]
  have produced : (p.received.map fun c => c.declared.unit).Subperm (p.jobs.filterMap Job.produced?) :=
    ((List.sublist_append_left _ _).map _).subperm.trans books.compiling.produced.symm.subperm
  have tasks : (p.tasks.filterMap ParseTask.passed?).Sublist
      ((p.tasks.map ParseTask.unit).filter SourceUnit.parses) :=
    filterMap_sublist (·.phase.isFinished) _ _ fun task _ => by rw [ParseTask.passed?]
  have passed : (p.jobs.map Job.unit).Subperm (p.tasks.filterMap ParseTask.passed?) := by
    refine List.Subperm.trans ?_ books.parsing.passed.symm.subperm
    rw [List.map_append, List.map_map]
    exact (List.sublist_append_right _ _).subperm
  have accepted : (p.tasks.map ParseTask.unit).Sublist (Input.accepted settings.inputErrors input) := by
    have whole := books.intake.accepted
    rw [books.settings] at whole
    rw [whole]
    exact List.sublist_append_left _ _
  have compiles : (Input.accepted settings.inputErrors input).filter SourceUnit.compiles =
      ((Input.accepted settings.inputErrors input).filter SourceUnit.parses).filter fun unit =>
        Image.isValidName unit.qualifiedName := by
    rw [List.filter_filter]
    exact List.filter_congr fun unit _ => Bool.and_comm _ _
  rw [compiles]
  have parsed := (passed.trans tasks.subperm).trans (accepted.filter _).subperm
  exact (produced.trans jobs.subperm).trans (parsed.filter _)

structure Named (settings : Settings) (input : List Input) (p : Pipeline) : Prop where
  books : Books settings input p
  compiled : ∀ c ∈ p.received ++ p.compiled,
    c.declared.declaration.qualifiedName = c.declared.unit.qualifiedName

theorem Named.move (named : Named settings input p) (move : p.Move q) : Named settings input q where
  books := named.books.move move
  compiled c held := by
    rcases move.delivers held with old | ⟨job, member, phase⟩
    · exact named.compiled c old
    · have orderly := named.books.orderly
      rw [(orderly.sending job member c phase).1]
      exact orderly.named _ (List.mem_append_right _ (List.mem_map_of_mem member))

theorem execute_named {schedule : List Action}
    (ran : (start .standard settings input none).execute schedule = some p) : Named settings input p :=
  execute_induction (fun _ _ => Named.move) schedule _ _ ⟨start_books settings input, by simp [start]⟩ ran

end Pipeline

/-- What is among labelled items can be given their labels. -/
theorem exists_labels {α β γ : Type} {labelled : List (α × β)} {items : List γ} {g : γ → β}
    (part : (items.map g).Subperm (labelled.map Prod.snd)) :
    ∃ found : List (α × γ), found.map Prod.snd = items ∧
      (found.map fun f => (f.1, g f.2)).Subperm labelled := by
  obtain ⟨list, perm, sublist⟩ := part
  obtain ⟨some, within, rfl⟩ := List.sublist_map_iff.mp sublist
  -- The labelled items that were found, in the order of the items.
  have composed : Relation.Comp (fun texts list => texts = list.map Prod.snd) List.Perm (items.map g) some := by
    rw [List.eq_map_comp_perm]
    exact perm.symm
  obtain ⟨ordered, same, reordered⟩ := composed
  have sizes : items.length = ordered.length := by simpa using congrArg List.length same
  have whole : ((ordered.map Prod.fst).zip items).map (fun f => (f.1, g f.2)) = ordered := by
    calc ((ordered.map Prod.fst).zip items).map (fun f => (f.1, g f.2))
      _ = (ordered.map Prod.fst).zip (items.map g) := List.zip_map_right.symm
      _ = (ordered.map Prod.fst).zip (ordered.map Prod.snd) := by rw [same]
      _ = ordered := (List.zip_of_prod rfl rfl).symm
  refine ⟨(ordered.map Prod.fst).zip items, List.map_snd_zip (by simp [sizes]), some, ?_, within⟩
  rw [whole]
  exact reordered.symm

/-! ## Files that are written -/

def CompiledUnit.path (output : String) (c : CompiledUnit) : String :=
  Path.join output (Image.artifactName c.declared.unit.qualifiedName)

/-- What a build makes of an inventory: the units that it has compiled, with their locations, the paths that
it has written for them and the tree that it leaves. -/
structure Build.Yields (inventory : List (Location × SourceUnit)) (output : String)
    (found : List (Location × CompiledUnit)) (written : List String) (tree : FileTree) : Prop where
  origin : (found.map fun f => (f.1, f.2.declared.unit)).Subperm (inventory.filter (·.2.compiles))
  paths : written = found.map (·.2.path output)
  /-- Types of different names have images at different places. -/
  apart : (written.map Path.place).Nodup ↔ (found.map (·.2.declared.unit.qualifiedName)).Nodup
  clear : (∀ f ∈ found, Sources.Clear f.1) → (written.map Path.place).Nodup
  /-- Of several units with one type name, the last one's image stays. -/
  last : ∀ before f after, found = before ++ f :: after →
    (∀ g ∈ after, g.2.declared.unit.qualifiedName ≠ f.2.declared.unit.qualifiedName) →
      tree.read (f.2.path output) = .ok f.2.image.encode

namespace Sources

variable {root : String} {e : Entry} {location location' : Location} {u u' : SourceUnit}

theorem qualifiedName_flat (proper : e.Proper) (found : (location, u) ∈ inventory root e) :
    '/' ∉ u.qualifiedName.toList := by
  obtain ⟨bytes, member, unit⟩ := mem_inventory.mp found
  obtain ⟨directories, rfl, -, file⟩ := unit?_eq_some unit
  have named := (proper.named _ member u.fileName (by simp)).2
  rw [file, String.toList_append, List.mem_append, not_or] at named
  exact SourceUnit.qualifiedName_flat named.1

/-- Images of the units in one directory are at one place exactly if their types have one name. -/
theorem place_inj (proper : e.Proper) (found : (location, u) ∈ inventory root e)
    (found' : (location', u') ∈ inventory root e) (compiles : u.compiles = true)
    (compiles' : u'.compiles = true) (output : String) :
    Path.place (Path.join output (Image.artifactName u.qualifiedName)) =
      Path.place (Path.join output (Image.artifactName u'.qualifiedName)) ↔
    u.qualifiedName = u'.qualifiedName := by
  rw [SourceUnit.compiles, Bool.and_eq_true] at compiles compiles'
  exact Image.place_artifactName_inj (qualifiedName_flat proper found) (qualifiedName_flat proper found')
    compiles.2 compiles'.2 output

theorem location_eq (proper : e.Proper) (found : (location, u) ∈ inventory root e)
    (found' : (location', u') ∈ inventory root e) (clear : Clear location) (clear' : Clear location')
    (same : u.qualifiedName = u'.qualifiedName) : location = location' := by
  obtain ⟨bytes, member, unit⟩ := mem_inventory.mp found
  obtain ⟨bytes', member', unit'⟩ := mem_inventory.mp found'
  exact location_unique unit unit' (proper.named _ member) (proper.named _ member') clear clear' same

end Sources

namespace Build

variable {t tree : FileTree} {source output : String} {settings : Settings} {place : Location} {e : Entry}

/-- The units that are received have locations of their own. -/
theorem exists_locations (located : t.find source = .ok (place, e)) {schedule : List Pipeline.Action}
    {p : Pipeline}
    (ran : (Pipeline.start .standard settings (Sources.discover t source) none).execute schedule = some p) :
    ∃ found : List (Location × CompiledUnit), found.map Prod.snd = p.received ∧
      (found.map fun f => (f.1, f.2.declared.unit)).Subperm
        ((Sources.inventory source e).filter (·.2.compiles)) := by
  obtain ⟨listed, lists⟩ := Sources.discover_lists located
  have accepted := Input.accepted_sublist settings.inputErrors (Sources.discover t source)
  rw [lists.units] at accepted
  have inside := (accepted.trans (lists.part.map Prod.snd)).filter SourceUnit.compiles
  rw [List.filter_map] at inside
  exact exists_labels ((Pipeline.execute_books ran).received_subperm.trans inside.subperm)

theorem nodup_locations (proper : e.Proper) {found : List (Location × CompiledUnit)}
    (origin : (found.map fun f => (f.1, f.2.declared.unit)).Subperm
      ((Sources.inventory source e).filter (·.2.compiles))) : (found.map Prod.fst).Nodup := by
  obtain ⟨list, perm, sublist⟩ := origin
  have nodup := (Sources.inventory_locations proper source).sublist
    ((sublist.trans List.filter_sublist).map Prod.fst)
  have same := perm.map Prod.fst
  rw [List.map_map] at same
  exact same.nodup_iff.mp nodup

def artifact (f : Location × CompiledUnit) : Artifact :=
  ⟨Image.artifactName f.2.declared.unit.qualifiedName, f.2.image.encode⟩

theorem path_artifact (f : Location × CompiledUnit) : Output.path output (artifact f) = f.2.path output := by
  rw [Output.path, artifact, CompiledUnit.path]

theorem artifacts_eq {found : List (Location × CompiledUnit)} (imaged : ∀ f ∈ found, f.2.Imaged)
    (named : ∀ f ∈ found, f.2.declared.declaration.qualifiedName = f.2.declared.unit.qualifiedName) :
    (found.map Prod.snd).flatMap CompiledUnit.artifacts = found.map artifact := by
  rw [List.flatMap_map, List.map_eq_flatMap]
  refine List.flatMap_congr fun f member => ?_
  rw [(imaged f member).artifacts_eq, named f member]
  rfl

theorem yields (located : t.find source = .ok (place, e)) (proper : e.Proper)
    {found : List (Location × CompiledUnit)}
    (origin : (found.map fun f => (f.1, f.2.declared.unit)).Subperm
      ((Sources.inventory source e).filter (·.2.compiles)))
    (imaged : ∀ f ∈ found, f.2.Imaged)
    (named : ∀ f ∈ found, f.2.declared.declaration.qualifiedName = f.2.declared.unit.qualifiedName)
    {written : List String} (stored : writeUnits t output (found.map Prod.snd) = (.ok written, tree)) :
    Yields (Sources.inventory source e) output found written tree := by
  have own (f : Location × CompiledUnit) (member : f ∈ found) :
      (f.1, f.2.declared.unit) ∈ Sources.inventory source e ∧ f.2.declared.unit.compiles = true := by
    have inside := origin.subset (List.mem_map.mpr ⟨f, member, rfl⟩)
    rwa [List.mem_filter] at inside
  have places (f g : Location × CompiledUnit) (member : f ∈ found) (other : g ∈ found) :
      Path.place (f.2.path output) = Path.place (g.2.path output) ↔
        f.2.declared.unit.qualifiedName = g.2.declared.unit.qualifiedName := by
    rw [CompiledUnit.path, CompiledUnit.path]
    exact Sources.place_inj proper (own f member).1 (own g other).1 (own f member).2 (own g other).2 output
  have images := writeUnits_eq_ok stored
  rw [artifacts_eq imaged named] at images
  obtain ⟨paths, stays⟩ := Output.write_eq_ok (FileTree.rooted_of_find located) images
  have paths : written = found.map (·.2.path output) := by
    rw [paths, List.map_map]
    refine List.map_congr_left fun f _ => ?_
    rw [Function.comp_apply, path_artifact]
  have apart : (written.map Path.place).Nodup ↔ (found.map (·.2.declared.unit.qualifiedName)).Nodup := by
    rw [paths, List.map_map, List.Nodup, List.Nodup, List.pairwise_map, List.pairwise_map]
    refine List.Pairwise.iff_of_mem fun {f g} member other => ?_
    rw [Function.comp_apply, Function.comp_apply, ne_eq, places f g member other]
  refine ⟨origin, paths, apart, fun clear => apart.mpr ?_, fun before f after split none => ?_⟩
  · have locations := nodup_locations proper origin
    rw [List.Nodup, List.pairwise_map] at locations ⊢
    refine locations.imp_of_mem fun {f g} member other different same => different ?_
    exact Sources.location_eq proper (own f member).1 (own g other).1 (clear f member) (clear g other) same
  · have member : f ∈ found := by simp [split]
    have alone : ∀ b ∈ after.map artifact,
        Path.place (Output.path output b) ≠ Path.place (Output.path output (artifact f)) := by
      intro b inside
      obtain ⟨g, later, rfl⟩ := List.mem_map.mp inside
      rw [path_artifact, path_artifact, ne_eq, places g f (by simp [split, later]) member]
      exact none g later
    obtain ⟨leads, there⟩ := stays.last (before.map artifact) (artifact f) (after.map artifact)
      (by rw [split, List.map_append, List.map_cons]) alone
    rw [path_artifact] at leads there
    exact leads.read there

/-- Unless a directory cannot be listed, a compilation that has ended has all units that can be compiled. -/
theorem length_received (located : t.find source = .ok (place, e)) {schedule : List Pipeline.Action}
    {p : Pipeline}
    (ran : (Pipeline.start .standard settings (Sources.discover t source) none).execute schedule = some p)
    (collected : p.isFinished = true)
    (whole : Input.failures settings.inputErrors (Sources.discover t source) = []) :
    p.received.length = ((Sources.inventory source e).filter (·.2.compiles)).length := by
  obtain ⟨listed, lists⟩ := Sources.discover_lists located
  obtain rfl := lists.whole (Input.unit?_ne_none whole)
  have received := ((Pipeline.execute_books ran).received collected).length_eq
  rw [Input.accepted_eq _ _ whole, lists.units, List.filter_map, List.length_map, List.length_map] at received
  exact received

theorem compileInput_eq_ok {toolchain : Toolchain} {input : List Input} {wanted : Option Nat}
    {outcome : Outcome} (compiled : compileInput toolchain settings input wanted = .ok outcome) :
    outcome = ⟨(Pipeline.start toolchain settings input wanted).run.received,
      (Pipeline.start toolchain settings input wanted).run.reported⟩ := by
  unfold compileInput at compiled
  split at compiled
  · cases compiled
  · cases compiled
  · exact (Except.ok.inj compiled).symm

/-- A build that succeeds writes what a compilation has given it. -/
theorem run_eq_ok {toolchain : Toolchain} {r : BuildResult}
    (built : (run toolchain t source output settings).result = .ok r) :
    ∃ schedule p, (Pipeline.start toolchain settings (Sources.discover t source) none).execute schedule = some p ∧
      r.compiled = p.received.length ∧
      writeUnits t output p.received = (.ok r.written, (run toolchain t source output settings).tree) := by
  obtain ⟨schedule, ran⟩ :=
    Pipeline.run_execute (Pipeline.start toolchain settings (Sources.discover t source) none)
  refine ⟨schedule, _, ran, ?_⟩
  unfold run at built ⊢
  cases compiled : compileInput toolchain settings (Sources.discover t source) with
  | error error => simp [compiled] at built
  | ok outcome =>
    obtain rfl := compileInput_eq_ok compiled
    simp only [compiled] at built ⊢
    cases stored : writeUnits t output
      (Pipeline.start toolchain settings (Sources.discover t source) none).run.received with
    | mk written tree =>
      rw [stored] at built
      cases written with
      | error error => cases built
      | ok paths =>
        cases built
        exact ⟨rfl, rfl⟩

theorem exists_of_toOption {α : Type} {result : Except BuildError BuildResult} {facts : BuildResult → α}
    {expected : α} (outcome : result.toOption.map facts = some expected) :
    ∃ r, result = .ok r ∧ facts r = expected := by
  obtain ⟨r, built, same⟩ := Option.map_eq_some_iff.mp outcome
  cases result with
  | error error => cases built
  | ok =>
    cases built
    exact ⟨_, rfl, same⟩

end Build

/-- Whatever is in a source directory and however a compilation of it interleaves: the images of two units
are one file exactly if their types have one name, and then the last one stays. So each unit that was
compiled has a file of its own if no directory's name has a dot in it or blanks around it, and no file's
name has another dot than that of its extension. -/
theorem outputs_apart_iff (t : FileTree) (source output : String) (settings : Settings) (place : Location)
    (e : Entry) (located : t.find source = .ok (place, e)) (proper : e.Proper) :
    let input := Sources.discover t source
    let inventory := Sources.inventory source e
    let start := Pipeline.start .standard settings input none
    let build := Build.run .standard t source output settings
    (inventory.map Prod.fst).Nodup ∧
    (∃ found, Input.Lists input inventory found) ∧
    (∀ f ∈ inventory, ∀ g ∈ inventory,
      (Image.artifactName f.2.qualifiedName = Image.artifactName g.2.qualifiedName ↔
        f.2.qualifiedName = g.2.qualifiedName) ∧
      (Sources.Clear f.1 → Sources.Clear g.1 → f.2.qualifiedName = g.2.qualifiedName → f = g)) ∧
    (∀ schedule p, start.execute schedule = some p →
      ∀ written tree, Build.writeUnits t output p.received = (.ok written, tree) →
        ∃ found, found.map Prod.snd = p.received ∧ Build.Yields inventory output found written tree ∧
          (p.isFinished = true → Input.failures settings.inputErrors input = [] →
            (found.map fun f => (f.1, f.2.declared.unit)).Perm (inventory.filter (·.2.compiles)))) ∧
    ∀ r, build.result = .ok r →
      ∃ schedule p, start.execute schedule = some p ∧ r.compiled = p.received.length ∧
        Build.writeUnits t output p.received = (.ok r.written, build.tree) := by
  intro input inventory start build
  have locations := Sources.inventory_locations proper source
  refine ⟨locations, Sources.discover_lists located, ?_, ?_, fun r => Build.run_eq_ok⟩
  · intro f found g found'
    refine ⟨Image.artifactName_inj (Sources.qualifiedName_flat proper found)
      (Sources.qualifiedName_flat proper found'), fun clear clear' same => ?_⟩
    exact List.inj_on_of_nodup_map locations found found'
      (Sources.location_eq proper found found' clear clear' same)
  · intro schedule p ran written tree stored
    obtain ⟨found, received, origin⟩ := Build.exists_locations located ran
    have inside (f : Location × CompiledUnit) (member : f ∈ found) : f.2 ∈ p.received := by
      rw [← received]
      exact List.mem_map_of_mem member
    have imaged (f : Location × CompiledUnit) (member : f ∈ found) : f.2.Imaged :=
      (Pipeline.execute_imaged ran).compiled f.2 (List.mem_append_left _ (inside f member))
    have named (f : Location × CompiledUnit) (member : f ∈ found) :=
      (Pipeline.execute_named ran).compiled f.2 (List.mem_append_left _ (inside f member))
    rw [← received] at stored
    refine ⟨found, received, Build.yields located proper origin imaged named stored, fun collected whole => ?_⟩
    refine origin.perm_of_length_le ?_
    rw [← Build.length_received located ran collected whole, List.length_map, ← received, List.length_map]

/-- Types of one simple name in three packages. -/
def packages : Entry :=
  .directory [("A.firefly", .file []),
    ("m", .directory [("A.firefly", .file []), ("n", .directory [("A.firefly", .file [])])])]

theorem packages_proper : packages.Proper := by
  refine .directory (by decide) (by decide) ?_
  simp only [List.forall_mem_cons, List.not_mem_nil, false_implies, implies_true, and_true]
  refine ⟨.file _, .directory (by decide) (by decide) ?_⟩
  simp only [List.forall_mem_cons, List.not_mem_nil, false_implies, implies_true, and_true]
  refine ⟨.file _, .directory (by decide) (by decide) ?_⟩
  simp only [List.forall_mem_cons, List.not_mem_nil, false_implies, implies_true, and_true]
  exact .file _

def packed : FileTree := ⟨.directory [("src", packages)]⟩

theorem packed_apart : packed.find "src" = .ok (["src"], packages) ∧ packages.Proper ∧
    ∃ r found, (Build.run .standard packed "src" "out" {}).result = .ok r ∧ r.compiled = 3 ∧
      Build.Yields (Sources.inventory "src" packages) "out" found r.written
        (Build.run .standard packed "src" "out" {}).tree ∧
      (r.written.map Path.place).Nodup := by
  have located : packed.find "src" = .ok (["src"], packages) := rfl
  have count : (Build.run .standard packed "src" "out" {}).result.toOption.map BuildResult.compiled =
      some 3 := by
    decide +kernel
  have clear : ∀ f ∈ Sources.inventory "src" packages, Sources.Clear f.1 := by decide +kernel
  obtain ⟨r, built, three⟩ := Build.exists_of_toOption count
  obtain ⟨-, -, -, runs, builds⟩ :=
    outputs_apart_iff packed "src" "out" {} ["src"] packages located packages_proper
  obtain ⟨schedule, p, ran, -, stored⟩ := builds r built
  obtain ⟨found, -, yields, -⟩ := runs schedule p ran _ _ stored
  refine ⟨located, packages_proper, r, found, built, three, yields, yields.clear fun f member => ?_⟩
  have inside := yields.origin.subset (List.mem_map.mpr ⟨f, member, rfl⟩)
  exact clear _ (List.mem_of_mem_filter inside)

/-- A type in a directory with a dot in its name, and one of the same name from two directories. -/
def colliding : FileTree :=
  ⟨.directory [("src", .directory [("a", .directory [("b", .directory [("C.firefly", .file [])])]),
    ("a.b", .directory [("C.firefly", .file [])])])]⟩

/-- Two units are compiled and nothing is reported, but one file is written. -/
theorem colliding_overwritten : ∃ r, (Build.run .standard colliding "src" "out" {}).result = .ok r ∧
    r.summary.isClean = true ∧ r.compiled = 2 ∧ r.written = ["out/a/b/C.ffc", "out/a/b/C.ffc"] ∧
    (colliding.changes (Build.run .standard colliding "src" "out" {}).tree).map Prod.fst =
      [["out", "a", "b", "C.ffc"]] := by
  have outcome : (Build.run .standard colliding "src" "out" {}).result.toOption.map
      (fun r => (r.summary.isClean, r.compiled, r.written)) =
        some (true, 2, ["out/a/b/C.ffc", "out/a/b/C.ffc"]) := by
    decide +kernel
  have files : (colliding.changes (Build.run .standard colliding "src" "out" {}).tree).map Prod.fst =
      [["out", "a", "b", "C.ffc"]] := by
    decide +kernel
  obtain ⟨r, built, facts⟩ := Build.exists_of_toOption outcome
  obtain ⟨clean, count, written⟩ : r.summary.isClean = true ∧ r.compiled = 2 ∧
      r.written = ["out/a/b/C.ffc", "out/a/b/C.ffc"] := by
    simpa using facts
  exact ⟨r, built, clean, count, written, files⟩

end UnitCompiler
