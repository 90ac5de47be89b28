import UnitCompiler.Proofs.FileTreeStorage
import UnitCompiler.Proofs.ImageRoundTrip

/-! Names on the way from a source file to its image. The names that lead to a file make up the name of its
type, and the name of the type makes up the path of the image. No two type names have the same image, but
a type name does not tell a dot in a directory's name from the step into another directory. -/

namespace UnitCompiler

/-! ## Paths -/

namespace Path

/-- The pieces of a path that lead somewhere. -/
def kept (text : List Char) : List String :=
  ((Text.pieces '/' text).map String.ofList).filter fun name => name ≠ "" ∧ name ≠ "."

theorem names_eq (path : String) :
    names path = if isAbsolute path then "/" :: kept path.toList else kept path.toList := rfl

@[simp] theorem kept_nil : kept [] = [] := by simp [kept, Text.pieces]

theorem kept_append (first second : List Char) : kept (first ++ '/' :: second) = kept first ++ kept second := by
  simp [kept, Text.pieces_append]

theorem names_append {directory rest : String} (some : directory ≠ "")
    (added : List String) (kept : kept (directory ++ rest).toList = kept directory.toList ++ added) :
    names (directory ++ rest) = names directory ++ added := by
  have start : isAbsolute (directory ++ rest) = isAbsolute directory := by
    obtain ⟨c, more, text⟩ := List.exists_cons_of_ne_nil (mt String.toList_eq_nil_iff.mp some)
    simp [isAbsolute, text]
  rw [names_eq, names_eq, start, kept]
  split <;> rfl

theorem names_join {directory path : String} (relative : isAbsolute path = false) :
    names (join directory path) = names directory ++ names path := by
  have own : names path = kept path.toList := by simp [names_eq, relative]
  unfold join
  rw [relative, Bool.false_or, own]
  split
  · next empty =>
    rw [String.isEmpty_iff.mp empty, own]
    rfl
  · next some =>
    rw [String.isEmpty_iff] at some
    split
    · next slash =>
      obtain ⟨front, text⟩ := List.getLast?_eq_some_iff.mp (beq_iff_eq.mp slash)
      refine names_append some _ ?_
      rw [String.toList_append, text, List.append_assoc, List.singleton_append, kept_append, kept_append]
      simp
    · rw [String.append_assoc]
      refine names_append some _ ?_
      rw [String.toList_append, String.toList_append]
      exact kept_append _ _

def Plain (path : String) : Prop := ∀ piece ∈ pieces path, piece ≠ "" ∧ piece ≠ "." ∧ piece ≠ ".."

theorem Plain.relative {path : String} (plain : Plain path) : isAbsolute path = false := by
  rw [Bool.eq_false_iff]
  intro absolute
  obtain ⟨rest, text⟩ := List.head?_eq_some_iff.mp (beq_iff_eq.mp absolute)
  refine (plain "" ?_).1 rfl
  simp [pieces, text, Text.pieces]

theorem Plain.names {path : String} (plain : Plain path) : names path = pieces path := by
  rw [names_eq, plain.relative]
  refine List.filter_eq_self.mpr fun piece member => ?_
  have own := plain piece member
  simp [own]

theorem foldl_enter {names : List String} (down : ∀ name ∈ names, name ≠ "..") (place : Location) :
    names.foldl FileTree.enter place = place ++ names := by
  induction names generalizing place with
  | nil => simp
  | cons name rest ih =>
    rw [List.forall_mem_cons] at down
    rw [List.foldl_cons, ih down.2, FileTree.enter, if_neg down.1, List.append_assoc, List.singleton_append]

theorem Plain.place_join {path : String} (plain : Plain path) (directory : String) :
    place (join directory path) = place directory ++ pieces path := by
  rw [place, names_join plain.relative, List.foldl_append, plain.names,
    foldl_enter fun piece member => (plain piece member).2.2]
  rfl

theorem pieces_injective : pieces.Injective := by
  intro path other same
  have texts := List.map_injective_iff.mpr (fun _ _ => String.ofList_inj.mp) same
  rw [← String.toList_inj, ← Text.intercalate_pieces '/' path.toList, texts,
    Text.intercalate_pieces]

end Path

/-! ## Images -/

namespace Text

variable {old new : Char}

theorem map_replace {text : List Char} (absent : old ∉ text) :
    (text.map fun c => if c = old then new else c) = text := by
  have each : ∀ c ∈ text, (if c = old then new else c) = c := by
    intro c inside
    rw [if_neg]
    rintro rfl
    exact absent inside
  exact (List.map_congr_left each).trans (List.map_id text)

/-- If another character takes the separator's place, the pieces stay. What is added goes to the last. -/
theorem pieces_replace {front : List (List Char)} {last tail : List Char}
    (each : ∀ piece ∈ front ++ [last], old ∉ piece ∧ new ∉ piece) (none : new ∉ tail) :
    pieces new ((([old].intercalate (front ++ [last])).map fun c => if c = old then new else c) ++ tail) =
      front ++ [last ++ tail] := by
  induction front with
  | nil =>
    obtain ⟨absent, free⟩ := each last List.mem_cons_self
    rw [List.nil_append, List.intercalate_singleton, map_replace absent]
    exact pieces_of_notMem (by simp [free, none])
  | cons piece front ih =>
    obtain ⟨absent, free⟩ := each piece List.mem_cons_self
    rw [List.cons_append, List.intercalate_cons_of_ne_nil (by simp)]
    simp only [List.map_append, List.map_cons, if_true, map_replace absent, List.append_assoc,
      List.singleton_append]
    rw [List.cons_append, pieces_append, pieces_of_notMem free,
      ih fun other member => each other (List.mem_cons_of_mem _ member)]
    rfl

end Text

namespace Image

theorem toList_artifactName (name : String) : (artifactName name).toList =
    (name.toList.map fun c => if c = '.' then '/' else c) ++ ['.', 'f', 'f', 'c'] := by
  rw [artifactName, String.toList_append, String.toList_ofList]
  rfl

/-- The image of a type tells its name. -/
theorem artifactName_inj {name other : String} (flat : '/' ∉ name.toList) (flat' : '/' ∉ other.toList) :
    artifactName name = artifactName other ↔ name = other := by
  refine ⟨fun same => ?_, congrArg artifactName⟩
  have back {text : List Char} (flat : '/' ∉ text) :
      (text.map fun c => if c = '.' then '/' else c).map (fun c => if c = '/' then '.' else c) = text := by
    rw [List.map_map]
    refine (List.map_congr_left fun c inside => ?_).trans (List.map_id text)
    have other : c ≠ '/' := fun slash => flat (slash ▸ inside)
    by_cases dot : c = '.'
    · simp [dot]
    · simp [dot, other]
  rw [← String.toList_inj, toList_artifactName, toList_artifactName, List.append_left_inj] at same
  rw [← String.toList_inj, ← back flat, same, back flat']

theorem artifactName_plain {name : String} (flat : '/' ∉ name.toList) (valid : isValidName name = true) :
    Path.Plain (artifactName name) := by
  obtain ⟨-, complete⟩ := (isValidName_iff name).mp valid
  rw [← Text.pieces_eq_splitOn] at complete
  have text := Text.intercalate_pieces '.' name.toList
  have each (piece : List Char) (member : piece ∈ Text.pieces '.' name.toList) : '.' ∉ piece ∧ '/' ∉ piece :=
    ⟨Text.notMem_of_mem_pieces member, fun slash => flat (Text.mem_of_mem_pieces member slash)⟩
  obtain ⟨front, last, cut⟩ : ∃ front last, Text.pieces '.' name.toList = front ++ [last] :=
    ⟨_, _, (List.dropLast_append_getLast (Text.pieces_ne_nil '.' name.toList)).symm⟩
  rw [cut] at text each complete
  intro piece member
  rw [Path.pieces, toList_artifactName, ← text, Text.pieces_replace each (by decide)] at member
  obtain ⟨chars, inside, rfl⟩ := List.mem_map.mp member
  simp only [ne_eq, ← String.toList_inj, String.toList_ofList]
  rcases List.mem_append.mp inside with segment | added
  · -- A segment has something in it, but no dots.
    have own := List.mem_append_left [last] segment
    refine ⟨fun empty => complete (by rwa [empty, String.toList_empty] at own), ?_, ?_⟩ <;>
      · rintro rfl
        exact (each _ own).1 (by decide)
  · rw [List.mem_singleton.mp added]
    refine ⟨by simp, ?_, ?_⟩ <;>
      · intro dots
        have size := congrArg List.length dots
        simp at size

/-- Images of different types are at different places. -/
theorem place_artifactName_inj {name other : String} (flat : '/' ∉ name.toList)
    (flat' : '/' ∉ other.toList) (valid : isValidName name = true) (valid' : isValidName other = true)
    (directory : String) : Path.place (Path.join directory (artifactName name)) =
      Path.place (Path.join directory (artifactName other)) ↔ name = other := by
  rw [(artifactName_plain flat valid).place_join, (artifactName_plain flat' valid').place_join,
    List.append_cancel_left_eq, Path.pieces_injective.eq_iff, artifactName_inj flat flat']

end Image

/-! ## Source files -/

/-- What an entry of a directory can be called. -/
def Entry.IsName (name : String) : Prop := name ≠ "" ∧ '/' ∉ name.toList

instance (name : String) : Decidable (Entry.IsName name) := inferInstanceAs (Decidable (_ ∧ _))

/-- The extension of a file is what its unit's name leaves out. -/
theorem SourceUnit.fileName_eq {u : SourceUnit} {extension : String}
    (found : Path.extension? u.fileName = some extension) : u.fileName = u.unitName ++ "." ++ extension := by
  unfold Path.extension? at found
  split at found
  · cases found
  · next ending stem named cut =>
    cases found
    have own : u.unitName = String.ofList stem.reverse := by
      cases stem with
      | nil => exact absurd rfl named
      | cons => rw [unitName, cut]
    obtain ⟨text, -⟩ := Text.splitFirst_eq_some_iff.mp cut
    rw [List.reverse_eq_iff] at text
    rw [own, ← String.toList_inj, text]
    simp
  · cases found

namespace Sources

/-- A unit has the name of its file, up to the extension, and the path of the directories before it. -/
theorem unit?_eq_some {names : Location} {content : Content} {u : SourceUnit}
    (found : unit? names content = some u) : ∃ directories, names = directories ++ [u.fileName] ∧
      u.relativePath = "/".intercalate directories ∧ u.fileName = u.unitName ++ ".firefly" := by
  unfold unit? at found
  split at found
  · cases found
  · next fileName last =>
    split at found
    · next source =>
      obtain ⟨directories, rfl⟩ := List.getLast?_eq_some_iff.mp last
      have own := Option.some.inj found
      have file : u.fileName = fileName := by rw [← own]
      have path : u.relativePath = "/".intercalate directories := by rw [← own, List.dropLast_concat]
      rw [isSource, beq_iff_eq, ← file] at source
      have dotted : "." ++ extension = ".firefly" := by decide
      refine ⟨directories, by rw [file], path, ?_⟩
      rw [← dotted, ← String.append_assoc]
      exact SourceUnit.fileName_eq source
    · cases found

end Sources

namespace SourceUnit

variable {u : SourceUnit}

theorem qualifiedName_flat (flat : '/' ∉ u.unitName.toList) : '/' ∉ u.qualifiedName.toList := by
  have package : '/' ∉ u.packageName.toList := by
    intro slash
    rw [packageName, String.toList_intercalate, List.map_map] at slash
    rcases Text.exists_of_mem_intercalate slash with dot | ⟨piece, member, inside⟩
    · exact absurd dot (by decide)
    · obtain ⟨own, kept, rfl⟩ := List.mem_map.mp member
      refine Text.notMem_of_mem_pieces (List.mem_of_mem_filter kept) ?_
      simpa using inside
  unfold qualifiedName Text.qualify
  split
  · exact flat
  · simp [package, flat]

/-- Directories that have names of their own and no dots or outer blanks in them make up the package. -/
theorem packageName_eq {directories : List String} (path : u.relativePath = "/".intercalate directories)
    (named : ∀ name ∈ directories, Entry.IsName name)
    (trimmed : ∀ name ∈ directories, Text.strip name.toList = name.toList) :
    u.packageName = ".".intercalate directories := by
  have some : ∀ piece ∈ directories.map String.toList, piece ≠ [] :=
    List.forall_mem_map.mpr fun name member => mt String.toList_eq_nil_iff.mp (named name member).1
  have flat : ∀ piece ∈ directories.map String.toList, '/' ∉ piece :=
    List.forall_mem_map.mpr fun name member => (named name member).2
  have text : u.directory = ['/'].intercalate (directories.map String.toList) := by
    have slash : "/".toList = ['/'] := rfl
    rw [directory, path, String.toList_intercalate, slash, Text.strip, Text.stripBy_intercalate,
      Text.stripBy_intercalate]
    · intro piece member
      refine ⟨some piece member, Text.stripBy_eq_self.mpr ⟨fun c first => ?_, fun c last => ?_⟩⟩
      · exact beq_false_of_ne fun same => flat piece member (same ▸ List.mem_of_head? first)
      · exact beq_false_of_ne fun same => flat piece member (same ▸ List.mem_of_getLast? last)
    · intro piece member
      obtain ⟨name, own, rfl⟩ := List.mem_map.mp member
      exact ⟨some _ member, trimmed name own⟩
  have back : (directories.map String.toList).map String.ofList = directories := by simp
  by_cases none : directories = []
  · subst none
    rw [packageName, text]
    rfl
  · have kept : (directories.map String.toList).filter (!·.isEmpty) = directories.map String.toList :=
      List.filter_eq_self.mpr fun piece member => by simpa using some piece member
    rw [packageName, text, Text.pieces_intercalate flat (by simpa using none), kept, back]

end SourceUnit

namespace Sources

/-- Directories without dots and without blanks around their names, and a file with no dot but that of its
extension. -/
def Clear (names : Location) : Prop :=
  (∀ name ∈ names.dropLast, '.' ∉ name.toList ∧ Text.strip name.toList = name.toList) ∧
    (names.getLastD "").toList.count '.' ≤ 1

instance (names : Location) : Decidable (Clear names) := inferInstanceAs (Decidable (_ ∧ _))

/-- The segments of a clear name are those of the location. -/
theorem Clear.pieces {names : Location} {content : Content} {u : SourceUnit} (clear : Clear names)
    (found : unit? names content = some u) (named : ∀ name ∈ names, Entry.IsName name) :
    Text.pieces '.' u.qualifiedName.toList = (names.dropLast ++ [u.unitName]).map String.toList := by
  obtain ⟨directories, rfl, path, file⟩ := unit?_eq_some found
  obtain ⟨apart, single⟩ := clear
  rw [List.dropLast_concat] at apart
  have own (name : String) (member : name ∈ directories) := named name (List.mem_append_left _ member)
  have package := SourceUnit.packageName_eq path own fun name member => (apart name member).2
  have undotted : '.' ∉ u.unitName.toList := by
    rw [List.getLastD_concat, file, String.toList_append, List.count_append] at single
    have dot : ".firefly".toList.count '.' = 1 := by decide
    exact List.count_eq_zero.mp (by omega)
  have text : u.packageName.toList = ['.'].intercalate (directories.map String.toList) := by
    rw [package, String.toList_intercalate]
    rfl
  rw [List.dropLast_concat, List.map_append, SourceUnit.qualifiedName, Text.qualify]
  by_cases none : directories = []
  · subst none
    rw [if_pos (by rw [package]; rfl)]
    exact Text.pieces_of_notMem undotted
  · have filled : ∀ piece ∈ directories.map String.toList, piece ≠ [] :=
      List.forall_mem_map.mpr fun name member => mt String.toList_eq_nil_iff.mp (own name member).1
    have some := Text.intercalate_ne_nil '.' (by simpa using none) filled
    rw [← text, ne_eq, String.toList_eq_nil_iff, ← String.isEmpty_iff] at some
    have dots : ∀ piece ∈ directories.map String.toList, '.' ∉ piece :=
      List.forall_mem_map.mpr fun name member => (apart name member).1
    have separated : (u.packageName ++ "." ++ u.unitName).toList =
        ['.'].intercalate (directories.map String.toList) ++ '.' :: u.unitName.toList := by
      rw [String.toList_append, String.toList_append, text, List.append_assoc]
      rfl
    rw [if_neg some, separated, Text.pieces_append, Text.pieces_intercalate dots (by simpa using none),
      Text.pieces_of_notMem undotted]
    rfl

/-- A file whose location is clear is told by the name of its type. -/
theorem location_unique {names names' : Location} {content content' : Content} {u u' : SourceUnit}
    (found : unit? names content = some u) (found' : unit? names' content' = some u')
    (named : ∀ name ∈ names, Entry.IsName name) (named' : ∀ name ∈ names', Entry.IsName name)
    (clear : Clear names) (clear' : Clear names') (same : u.qualifiedName = u'.qualifiedName) :
    names = names' := by
  have pieces := clear.pieces found named
  rw [same, clear'.pieces found' named'] at pieces
  have parts := List.map_injective_iff.mpr (fun _ _ => String.toList_inj.mp) pieces
  obtain ⟨above, unit⟩ := List.append_inj' parts rfl
  obtain ⟨directories, rfl, -, file⟩ := unit?_eq_some found
  obtain ⟨directories', rfl, -, file'⟩ := unit?_eq_some found'
  rw [List.dropLast_concat, List.dropLast_concat] at above
  rw [file, file', above, List.singleton_inj.mp unit]

end Sources

end UnitCompiler
