import UnitCompiler.Proofs.ImageNaming

/-! Artifacts stay in their directory. Names that lead out of it are refused before anything is written, so
every file that is written stands below the directory, at the names along the artifact's own name. The
images of a declaration are refused only if the name of its type starts with a slash. -/

namespace UnitCompiler

/-! ## Files that appear -/

namespace FileTree

variable {t t' t'' : FileTree} {place : Location} {changed more : Location → Prop}

def Gains (changed : Location → Prop) (t t' : FileTree) : Prop :=
  ∀ place bytes, t'.at? place = some (.file bytes) → changed place ∨ t.at? place = some (.file bytes)

theorem Gains.refl (t : FileTree) : t.Gains changed t := fun _ _ => .inr

theorem Gains.trans (first : t.Gains changed t') (second : t'.Gains changed t'') : t.Gains changed t'' :=
  fun place bytes there => (second place bytes there).elim .inl (first place bytes)

theorem Gains.mono (gains : t.Gains changed t') (weaker : ∀ place, changed place → more place) :
    t.Gains more t' :=
  fun place bytes there => (gains place bytes there).imp_left (weaker place)

theorem put_gains (t : FileTree) (place : Location) (new : Entry) (bare : new.entries = []) :
    t.Gains (· = place) (t.put place new) := by
  intro other bytes there
  by_cases same : other = place
  · exact .inl same
  right
  rw [at?_file] at there ⊢
  rcases Entry.at?_put_cases new t.top same with ⟨name, rest, rfl, below⟩ | ⟨-, entries, found⟩ | old
  · rw [put, below, Entry.at?, bare] at there
    cases there
  · rw [put, found] at there
    cases there
  · rwa [put, old] at there

/-- Making a way brings directories only. -/
theorem makeWay_gains {made : Bool} {names : List String} (done : t.makeWay place made names = .ok t') :
    t.Gains changed t' := by
  induction names generalizing t place made with
  | nil =>
    cases done
    exact .refl _
  | cons name rest ih =>
    unfold makeWay at done
    split at done
    · contradiction
    · dsimp only at done
      split at done
      · exact ih done
      · contradiction
      · refine Gains.trans (fun other bytes there => ?_) (ih done)
        rcases put_gains t _ _ rfl other bytes there with rfl | old
        · rw [at?, put, Entry.at?_put_self] at there
          cases there
        · exact .inr old

theorem makeDirectories_gains {path : String} (done : t.makeDirectories path = .ok t') :
    t.Gains changed t' := by
  obtain ⟨names, way⟩ := makeDirectories_way done
  exact makeWay_gains way

end FileTree

namespace Path

theorem names_subset_pieces {path : String} (relative : isAbsolute path = false) : names path ⊆ pieces path := by
  rw [names_eq, relative]
  exact List.filter_sublist.subset

theorem slash_notMem_pieces (path : String) : "/" ∉ pieces path := by
  intro root
  obtain ⟨piece, member, slash⟩ := List.mem_map.mp root
  refine Text.notMem_of_mem_pieces member ?_
  rw [← String.toList_ofList (l := piece), slash]
  decide

end Path

/-! ## Runs -/

namespace Output

variable {t t' : FileTree} {directory : String} {artifacts : List Artifact} {a : Artifact}

/-- The root or a step up stands along a name. -/
def Leaving (name : String) : Prop := "/" ∈ Path.names name ∨ ".." ∈ Path.names name

instance (name : String) : Decidable (Leaving name) := inferInstanceAs (Decidable (_ ∨ _))

def refusal (a : Artifact) : ImageError :=
  .invalidImage s!"artifact name '{a.name}' escapes the output directory"

def accepted (artifacts : List Artifact) : List Artifact :=
  artifacts.takeWhile fun a => ¬Leaving a.name

def verdict (directory : String) (artifacts : List Artifact) : Except ImageError (List String) :=
  match artifacts.find? fun a => Leaving a.name with
  | none => .ok (artifacts.map (path directory))
  | some a => .error (refusal a)

/-- Only names that leave the directory are refused. -/
theorem escapes_iff {name : String} : escapes name = true ↔ Leaving name := by
  rw [escapes, Leaving, Path.goesUp, Bool.or_eq_true, List.contains_iff_mem]
  cases start : Path.isAbsolute name with
  | true => simp [Path.names_eq, start]
  | false =>
    have root : "/" ∉ Path.names name := fun member =>
      Path.slash_notMem_pieces name (Path.names_subset_pieces start member)
    have up : ".." ∈ Path.names name ↔ ".." ∈ Path.pieces name := by
      rw [Path.names_eq, start]
      simp [Path.kept, Path.pieces]
    simp [root, up]

inductive Attempt (t : FileTree) (directory : String) (a : Artifact) :
    Except ImageError String × FileTree → Prop where
  | refused (outside : Leaving a.name) : Attempt t directory a (.error (refusal a), t)
  | failed (inside : ¬Leaving a.name) (reason : String) (t' : FileTree)
      (made : t' = t ∨ t.makeDirectories (Path.parent (path directory a)) = .ok t') :
      Attempt t directory a (.error (.inputOutput reason), t')
  | written (inside : ¬Leaving a.name) (between t' : FileTree)
      (made : t.makeDirectories (Path.parent (path directory a)) = .ok between)
      (stored : between.write (path directory a) a.bytes = .ok t') :
      Attempt t directory a (.ok (path directory a), t')

theorem writeOne_attempt (t : FileTree) (directory : String) (a : Artifact) :
    Attempt t directory a (writeOne t directory a) := by
  unfold writeOne
  split
  · next outside => exact .refused (escapes_iff.mp outside)
  · next refused =>
    have inside : ¬Leaving a.name := mt escapes_iff.mpr refused
    dsimp only
    split
    · exact .failed inside _ t (.inl rfl)
    · next between made =>
      split
      · exact .failed inside _ between (.inr made)
      · next t' stored => exact .written inside between t' made stored

theorem write_cons_ok (one : writeOne t directory a = (.ok (path directory a), t')) :
    write t directory (a :: artifacts) =
      ((write t' directory artifacts).1.map (path directory a :: ·), (write t' directory artifacts).2) := by
  rw [write, one]
  dsimp only
  split
  · next e t'' failed => rw [failed]; rfl
  · next paths t'' written => rw [written]; rfl

theorem verdict_cons (inside : ¬Leaving a.name) (artifacts : List Artifact) :
    verdict directory (a :: artifacts) = (verdict directory artifacts).map (path directory a :: ·) := by
  rw [verdict, verdict, List.find?_cons_of_neg (by simp [inside])]
  split <;> rfl

/-- Artifacts are written up to one that is refused or cannot be written. -/
theorem write_breaks_off (t : FileTree) (directory : String) (artifacts : List Artifact) :
    ∃ done between, done <+: accepted artifacts ∧
      write t directory done = (.ok (done.map (path directory)), between) ∧
      ((done = accepted artifacts ∧ write t directory artifacts = (verdict directory artifacts, between)) ∨
        ∃ reason t', write t directory artifacts = (.error (.inputOutput reason), t') ∧
          (t' = between ∨ ∃ path, between.makeDirectories path = .ok t')) := by
  induction artifacts generalizing t with
  | nil => exact ⟨[], t, List.prefix_rfl, rfl, .inl ⟨rfl, rfl⟩⟩
  | cons a rest ih =>
    have attempt := writeOne_attempt t directory a
    generalize one : writeOne t directory a = outcome at attempt
    cases attempt with
    | refused outside =>
      refine ⟨[], t, List.nil_prefix, rfl, .inl ⟨?_, ?_⟩⟩
      · simp [accepted, outside]
      · simp [write, one, verdict, outside]
    | failed inside reason t' made =>
      have answer : write t directory (a :: rest) = (.error (.inputOutput reason), t') := by
        simp [write, one]
      exact ⟨[], t, List.nil_prefix, rfl, .inr ⟨reason, t', answer, made.imp_right fun made => ⟨_, made⟩⟩⟩
    | written inside between t' made stored =>
      obtain ⟨done, after, front, whole, ends⟩ := ih t'
      have more : accepted (a :: rest) = a :: accepted rest := by simp [accepted, inside]
      refine ⟨a :: done, after, ?_, ?_, ?_⟩
      · rw [more]
        exact (List.prefix_cons_inj a).mpr front
      · rw [write_cons_ok one, whole]
        rfl
      · rcases ends with ⟨all, answer⟩ | ⟨reason, last, answer, made⟩
        · exact .inl ⟨by rw [more, all], by rw [write_cons_ok one, answer, verdict_cons inside]⟩
        · exact .inr ⟨reason, last, by rw [write_cons_ok one, answer]; rfl, made⟩

theorem mem_accepted (member : a ∈ accepted artifacts) : ¬Leaving a.name := by
  simpa using List.mem_takeWhile_imp member

/-! ## Places -/

/-- An accepted name leads down from the directory. -/
theorem names_path (inside : ¬Leaving a.name) (directory : String) :
    Path.names (path directory a) = Path.names directory ++ Path.names a.name := by
  apply Path.names_join
  rw [Bool.eq_false_iff]
  intro absolute
  exact inside (.inl (by simp [Path.names_eq, absolute]))

theorem place_path (inside : ¬Leaving a.name) (directory : String) :
    Path.place (path directory a) = Path.place directory ++ Path.names a.name := by
  have down : ∀ name ∈ Path.names a.name, name ≠ ".." := fun name member same =>
    inside (.inr (same ▸ member))
  rw [Path.place, names_path inside, List.foldl_append, Path.foldl_enter down]
  rfl

theorem write_gains {paths : List String} (written : write t directory artifacts = (.ok paths, t')) :
    t.Gains (fun place => ∃ a ∈ artifacts, Path.place (path directory a) = place) t' := by
  induction artifacts generalizing t paths with
  | nil =>
    cases written
    exact .refl _
  | cons a rest ih =>
    obtain ⟨path, after, more, one, others, rfl⟩ := write_cons_eq_ok written
    have attempt := writeOne_attempt t directory a
    rw [one] at attempt
    cases attempt with
    | written inside between after made stored =>
      obtain ⟨-, -, rfl⟩ := FileTree.write_eq_ok stored
      have own := (FileTree.makeDirectories_gains made).trans
        (FileTree.put_gains between (Path.place (Output.path directory a)) (.file a.bytes) rfl)
      refine (own.mono ?_).trans ((ih others).mono ?_)
      · rintro _ rfl
        exact ⟨a, List.mem_cons_self, rfl⟩
      · rintro _ ⟨b, member, rfl⟩
        exact ⟨b, List.mem_cons_of_mem a member, rfl⟩

/-- What artifacts leave behind, each below the directory at the names along its own name: the last one at
a place stands there, and all other files are as they were. -/
structure Leaves (directory : String) (artifacts : List Artifact) (t t' : FileTree) : Prop where
  last : ∀ before a after, artifacts = before ++ a :: after →
    (∀ b ∈ after, Path.names b.name ≠ Path.names a.name) →
      t'.at? (Path.place directory ++ Path.names a.name) = some (.file a.bytes)
  elsewhere : ∀ place, (∀ a ∈ artifacts, Path.place directory ++ Path.names a.name ≠ place) →
    ∀ bytes, t'.at? place = some (.file bytes) ↔ t.at? place = some (.file bytes)

theorem Stored.leaves (stored : Stored directory artifacts t t')
    (gains : t.Gains (fun place => ∃ a ∈ artifacts, Path.place (path directory a) = place) t')
    (inside : ∀ a ∈ artifacts, ¬Leaving a.name) : Leaves directory artifacts t t' where
  last before a after split alone := by
    have own : ¬Leaving a.name := inside a (by simp [split])
    rw [← place_path own]
    refine (stored.last before a after split fun b later => ?_).2
    rw [place_path own, place_path (inside b (by simp [split, later])), ne_eq, List.append_cancel_left_eq]
    exact alone b later
  elsewhere place apart bytes := by
    have free : ¬∃ a ∈ artifacts, Path.place (path directory a) = place := by
      rintro ⟨a, member, same⟩
      rw [place_path (inside a member)] at same
      exact apart a member same
    exact ⟨fun there => (gains place bytes there).resolve_left free, stored.keeps.files place bytes free⟩

/-- Directories that are made leave all of that as it is. -/
theorem Stored.keep {t'' : FileTree} (stored : Stored directory artifacts t t')
    (keeps : t'.Keeps (fun _ => False) t'') : Stored directory artifacts t t'' where
  keeps := stored.keeps.trans (keeps.mono fun _ => False.elim)
  last before a after split alone := by
    obtain ⟨leads, there⟩ := stored.last before a after split alone
    exact ⟨leads.keep keeps, keeps.files _ _ id there⟩

/-- Only accepted artifacts leave something behind, and unless one cannot be written all of them do. -/
theorem write_leaves (rooted : t.HasDirectory []) (directory : String) (artifacts : List Artifact) :
    ∃ done, done <+: accepted artifacts ∧ (write t directory done).1 = .ok (done.map (path directory)) ∧
      Leaves directory done t (write t directory artifacts).2 ∧
      ((∀ reason, (write t directory artifacts).1 ≠ .error (.inputOutput reason)) →
        done = accepted artifacts ∧ (write t directory artifacts).1 = verdict directory artifacts) := by
  obtain ⟨done, between, front, written, ends⟩ := write_breaks_off t directory artifacts
  have inside (a : Artifact) (member : a ∈ done) : ¬Leaving a.name :=
    mem_accepted (front.subset member)
  have stored := (write_eq_ok rooted written).2
  have gains := write_gains written
  refine ⟨done, front, by rw [written], ?_⟩
  rcases ends with ⟨all, whole⟩ | ⟨reason, last, whole, made⟩
  · rw [whole]
    exact ⟨stored.leaves gains inside, fun _ => ⟨all, rfl⟩⟩
  · rw [whole]
    refine ⟨?_, fun possible => absurd rfl (possible reason)⟩
    rcases made with rfl | ⟨path, made⟩
    · exact stored.leaves gains inside
    · have keeps := FileTree.makeDirectories_keeps (stored.keeps.directories [] rooted) made
      exact (stored.keep keeps).leaves (gains.trans (FileTree.makeDirectories_gains made)) inside

/-- A single artifact is refused for its name alone. -/
theorem write_refused_iff (t : FileTree) (directory : String) (a : Artifact) :
    (write t directory [a]).1 = .error (refusal a) ↔ Leaving a.name := by
  have attempt := writeOne_attempt t directory a
  generalize one : writeOne t directory a = outcome at attempt
  cases attempt with
  | refused outside => simp [write, one, outside]
  | failed inside reason t' made => simp [write, one, inside, refusal]
  | written inside between t' made stored => simp [write, one, inside]

end Output

/-! ## Names of images -/

namespace Text

/-- What is added to a text goes to its last piece. -/
theorem pieces_append_last {separator : Char} {tail : List Char} (none : separator ∉ tail) (text : List Char) :
    ∃ front last, pieces separator text = front ++ [last] ∧
      pieces separator (text ++ tail) = front ++ [last ++ tail] := by
  induction text with
  | nil => exact ⟨[], [], rfl, pieces_of_notMem none⟩
  | cons c text ih =>
    obtain ⟨front, last, own, added⟩ := ih
    rw [List.cons_append, pieces, pieces, own, added]
    by_cases cut : c = separator
    · exact ⟨[] :: front, last, by simp [cut], by simp [cut]⟩
    · cases front with
      | nil => exact ⟨[], c :: last, by simp [cut], by simp [cut]⟩
      | cons piece front => exact ⟨(c :: piece) :: front, last, by simp [cut], by simp [cut]⟩

end Text

namespace Image

/-- The only dot in the name of an image stands before the extension. -/
theorem artifactName_undotted (name : String) :
    "." ∉ Path.pieces (artifactName name) ∧ ".." ∉ Path.pieces (artifactName name) := by
  have extension : '/' ∉ ['.', 'f', 'f', 'c'] := by decide
  obtain ⟨front, last, own, added⟩ :=
    Text.pieces_append_last extension (name.toList.map fun c => if c = '.' then '/' else c)
  rw [← toList_artifactName] at added
  have undotted (piece : List Char) (member : piece ∈ front) : '.' ∉ piece := by
    have before : piece ∈ front ++ [last] := List.mem_append_left _ member
    rw [← own] at before
    intro dot
    obtain ⟨c, -, same⟩ := List.mem_map.mp (Text.mem_of_mem_pieces before dot)
    split at same
    · exact absurd same (by decide)
    · next other => exact other same
  have apart (dots : List Char) (dot : '.' ∈ dots) (short : dots.length < 4) :
      String.ofList dots ∉ Path.pieces (artifactName name) := by
    intro member
    obtain ⟨piece, inside, same⟩ := List.mem_map.mp member
    obtain rfl := String.ofList_inj.mp same
    rw [added] at inside
    rcases List.mem_append.mp inside with before | final
    · exact undotted piece before dot
    · rw [List.mem_singleton.mp final, List.length_append] at short
      exact absurd short (Nat.not_lt.mpr (Nat.le_add_left 4 _))
  exact ⟨apart ['.'] (by decide) (by decide), apart ['.', '.'] (by decide) (by decide)⟩

/-- A valid name does not start with a dot, so only its own slash can make the image's name absolute. -/
theorem isAbsolute_artifactName {name : String} (valid : isValidName name = true) :
    Path.isAbsolute (artifactName name) = true ↔ name.toList.head? = some '/' := by
  obtain ⟨-, complete⟩ := (isValidName_iff name).mp valid
  rw [← Text.pieces_eq_splitOn] at complete
  rw [Path.isAbsolute, toList_artifactName, beq_iff_eq]
  cases text : name.toList with
  | nil => simp
  | cons c rest =>
    have undotted : c ≠ '.' := by
      rintro rfl
      exact complete (by simp [text, Text.pieces])
    simp [undotted]

theorem leaving_artifactName {name : String} (valid : isValidName name = true) :
    Output.Leaving (artifactName name) ↔ name.toList.head? = some '/' := by
  have down : Path.goesUp (artifactName name) = false := by
    rw [Path.goesUp, Bool.eq_false_iff, ne_eq, List.contains_iff_mem]
    exact (artifactName_undotted name).2
  rw [← Output.escapes_iff, Output.escapes, down, Bool.or_false, isAbsolute_artifactName valid]

end Image

namespace Output

/-- Whatever is in the working directory, artifacts are written only below the output directory. The path of
an artifact is that of the directory, followed by the names along the artifact's name, none of which leads up
or to the root. Some of the artifacts before the first refused one are written, the last one at each place
stays, and no other file changes. Unless something cannot be written, all of them are. The image of a
declaration has no single or double dot along its name, and is refused exactly if the name of its type
starts with a slash. -/
theorem artifacts_confined (entries : List (String × Entry)) (directory : String)
    (artifacts : List Artifact) :
    let t : FileTree := ⟨.directory entries⟩
    let answer := write t directory artifacts
    (∀ a ∈ accepted artifacts,
      Path.names (path directory a) = Path.names directory ++ Path.names a.name ∧
        ".." ∉ Path.names a.name ∧ "/" ∉ Path.names a.name) ∧
    (∃ done, done <+: accepted artifacts ∧ (write t directory done).1 = .ok (done.map (path directory)) ∧
      Leaves directory done t answer.2 ∧
      ((∀ reason, answer.1 ≠ .error (.inputOutput reason)) →
        done = accepted artifacts ∧ answer.1 = verdict directory artifacts)) ∧
    ∀ sourceFile declaration made, Image.generate sourceFile declaration = .ok made →
      ∃ a, made = [a] ∧ "." ∉ Path.pieces a.name ∧ ".." ∉ Path.pieces a.name ∧
        ((write t directory made).1 = .error (refusal a) ↔
          declaration.qualifiedName.toList.head? = some '/') := by
  intro t answer
  have rooted : t.HasDirectory [] := ⟨entries, rfl⟩
  refine ⟨fun a member => ?_, write_leaves rooted directory artifacts,
    fun sourceFile declaration made generated => ?_⟩
  · have inside := mem_accepted member
    exact ⟨names_path inside directory, fun up => inside (.inr up), fun root => inside (.inl root)⟩
  · unfold Image.generate at generated
    split at generated
    · next valid =>
      cases generated
      obtain ⟨single, double⟩ := Image.artifactName_undotted declaration.qualifiedName
      refine ⟨_, rfl, single, double, ?_⟩
      rw [write_refused_iff, Image.leaving_artifactName valid]
    · cases generated

/-- Two artifacts in directories of their own, one that leads out of the directory and one behind it. -/
def straying : List Artifact := [⟨"a//b.ffc", [1]⟩, ⟨"./c/d.ffc", [2]⟩, ⟨"c/../../x", [3]⟩, ⟨"e.ffc", [4]⟩]

/-- A type whose name starts with a slash. -/
def rooting : TypeDeclaration := { qualifiedName := "/m.A", kind := .unit }

theorem straying_confined :
    let t : FileTree := ⟨.directory [("x", .file [0])]⟩
    let answer := write t "out" straying
    answer.1 = .error (refusal ⟨"c/../../x", [3]⟩) ∧
    answer.2.at? ["out", "a", "b.ffc"] = some (.file [1]) ∧
    answer.2.at? ["out", "c", "d.ffc"] = some (.file [2]) ∧
    answer.2.at? ["x"] = some (.file [0]) ∧
    ∃ a, Image.generate "A.firefly" rooting = .ok [a] ∧ (write t "out" [a]).1 = .error (refusal a) := by
  intro t answer
  obtain ⟨-, ⟨done, -, -, leaves, complete⟩, images⟩ := artifacts_confined [("x", .file [0])] "out" straying
  have refused : answer.1 = .error (refusal ⟨"c/../../x", [3]⟩) := by decide +kernel
  have possible (reason : String) : answer.1 ≠ .error (.inputOutput reason) := by
    rw [refused]
    simp [refusal]
  obtain ⟨rfl, -⟩ := complete possible
  have before : accepted straying = [⟨"a//b.ffc", [1]⟩, ⟨"./c/d.ffc", [2]⟩] := by decide +kernel
  rw [before] at leaves
  refine ⟨refused, ?_, ?_, ?_, ?_⟩
  · have place : Path.place "out" ++ Path.names "a//b.ffc" = ["out", "a", "b.ffc"] := by decide +kernel
    rw [← place]
    exact leaves.last [] ⟨"a//b.ffc", [1]⟩ [⟨"./c/d.ffc", [2]⟩] rfl (by decide +kernel)
  · have place : Path.place "out" ++ Path.names "./c/d.ffc" = ["out", "c", "d.ffc"] := by decide +kernel
    rw [← place]
    exact leaves.last [⟨"a//b.ffc", [1]⟩] ⟨"./c/d.ffc", [2]⟩ [] rfl (by decide +kernel)
  · exact (leaves.elsewhere ["x"] (by decide +kernel) [0]).mpr rfl
  · obtain ⟨a, made, -, -, iff⟩ := images "A.firefly" rooting _ rfl
    rw [made] at iff
    exact ⟨a, congrArg Except.ok made, iff.mpr rfl⟩

end Output

end UnitCompiler
